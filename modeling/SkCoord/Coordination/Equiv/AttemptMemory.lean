import SkCoord.Coordination.AttemptMemory
import SkCoord.Coordination.Equiv.UpdateTask
import SkCoord.Python.JsonRead

/-!
# The memory of attempts and successes is bounded

`memory_of_calls`: after any calls, each list of a task that began without entries holds the last ten
pairs that arrived, each with its latest entry.  A clearing begins the attempts anew, neither list
goes by the calls of the other one, and nothing else of the task file changes.
-/

namespace SkCoord

open Python

variable {env : DeskEnv} {d d' : Desk} {taskId path : String} {k : RunList} {r : Recording}
variable {task metaData autopilot : Dict}

/-! ### One entry -/

/-- The entries of a list. -/
def entriesOf (k : RunList) (l : List Recording) : List Json := l.map fun r => .obj (r.entry k)

theorem replaces_entry (r x : Recording) :
    r.replaces (.obj (x.entry k)) = .ok (decide (x.pair = r.pair)) := by
  have hpair : x.pair = r.pair ↔ x.runId = r.runId ∧ x.outcome = r.outcome := Prod.mk_inj
  have hrun : (Json.str x.runId).pyEq (.str r.runId) = decide (x.runId = r.runId) := by
    rw [Bool.eq_iff_iff, Json.pyEq_str_right_iff, decide_eq_true_iff, Json.str.injEq]
  have hout : (Json.str x.outcome).pyEq (.str r.outcome) = decide (x.outcome = r.outcome) := by
    rw [Bool.eq_iff_iff, Json.pyEq_str_right_iff, decide_eq_true_iff, Json.str.injEq]
  unfold Recording.replaces
  show (if (Json.str x.runId).pyEq (.str r.runId) then
    Except.ok ((Json.str x.outcome).pyEq (.str r.outcome)) else Except.ok false) = _
  rw [hrun, hout]
  by_cases h : x.runId = r.runId <;> simp [hpair, h]

theorem replaceEntry_entries (r : Recording) : ∀ l : List Recording,
    replaceEntry r (.obj (r.entry k)) (entriesOf k l) =
      .ok ((Recent.replaceFirst Recording.pair r l).map (entriesOf k))
  | [] => rfl
  | x :: l => by
    unfold entriesOf
    rw [List.map_cons]
    unfold replaceEntry Recent.replaceFirst
    rw [replaces_entry, ok_bind]
    by_cases hx : x.pair = r.pair
    · rw [decide_eq_true hx, if_pos rfl, if_pos hx]
      rfl
    · have hrest := replaceEntry_entries r l
      unfold entriesOf at hrest
      rw [decide_eq_false hx, if_neg Bool.false_ne_true, if_neg hx, hrest]
      cases Recent.replaceFirst Recording.pair r l <;> rfl

theorem trimEntries_arr (l : List Json) : trimEntries (.arr l) = .arr (l.rtake maxAttempts) := by
  show Json.arr (if maxAttempts < l.length then _ else _) = _
  split
  · rfl
  · rename_i h
    rw [Recent.rtake_of_length_le (Nat.le_of_not_lt h)]

/-- **One more entry** is put into the memory. -/
theorem recordEntry_entries (r : Recording) (l : List Recording) :
    recordEntry k r (.arr (entriesOf k l)) =
      .ok (.arr (entriesOf k (Recent.put maxAttempts Recording.pair l r))) := by
  have hiter : (Json.arr (entriesOf k l)).iter = .ok (entriesOf k l) := rfl
  unfold recordEntry Recent.put
  rw [hiter, ok_bind, replaceEntry_entries, ok_bind]
  cases Recent.replaceFirst Recording.pair r l with
  | none =>
    have happend : (Json.arr (entriesOf k l)).append (.obj (r.entry k)) =
        .ok (.arr (entriesOf k (l ++ [r]))) := by
      unfold entriesOf
      rw [List.map_append]
      rfl
    show (Json.append _ _ >>= _) = _
    rw [happend, ok_bind, trimEntries_arr, Option.getD_none]
    exact congrArg (fun l => Except.ok (Json.arr l)) (Recent.map_rtake _ _ _).symm
  | some l' =>
    show Except.ok (trimEntries _) = _
    rw [trimEntries_arr, Option.getD_some]
    exact congrArg (fun l => Except.ok (Json.arr l)) (Recent.map_rtake _ _ _).symm

theorem entry_wellFormed {F : FloatText} (k : RunList) (r : Recording) :
    (Json.obj (r.entry k)).WellFormed F := by
  cases k <;> simp [Recording.entry, RunList.whyField, RunList.hintField, Json.WellFormed,
    Json.FieldsWellFormed, Assoc.keys]

theorem entries_wellFormed {F : FloatText} (k : RunList) (l : List Recording) :
    (Json.arr (entriesOf k l)).WellFormed F := by
  refine Json.elemsWellFormed_iff.mpr fun v hv => ?_
  obtain ⟨r, -, rfl⟩ := List.mem_map.mp hv
  exact entry_wellFormed k r

/-! ### The dictionaries around the lists -/

/-- What `setdefault` returns, and what it leaves. -/
theorem setdefault_obj (d : Dict) (k : String) (v : Json) :
    ∃ d', setdefault (.obj d) k v = .ok (d', d.getD k v) ∧
      (∀ j ≠ k, Assoc.get? d' j = Assoc.get? d j) ∧
      ∀ F, (Json.obj d).WellFormed F → v.WellFormed F →
        (Json.obj d').WellFormed F ∧ (d.getD k v).WellFormed F := by
  unfold setdefault Dict.getD
  dsimp only
  cases hget : Assoc.get? d k with
  | none =>
    refine ⟨Assoc.set d k v, rfl, fun j hj => ?_, fun F hd hv => ⟨hd.set hv, hv⟩⟩
    rw [Assoc.get?_set, if_neg hj]
  | some w =>
    refine ⟨d, rfl, fun j _ => rfl, fun F hd _ => ⟨hd, ?_⟩⟩
    exact Json.fieldsWellFormed_iff.mp hd.2 _ (Assoc.mem_of_get? hget)

/-- The dictionaries that lead to the lists, and the lists. -/
structure HasMemory (task metaData autopilot : Dict) (lists : RunList → List Recording) :
    Prop where
  inTask : task.getD "meta" (.obj []) = .obj metaData
  inMeta : metaData.getD "autopilot" (.obj []) = .obj autopilot
  lists : ∀ k : RunList, autopilot.getD k.key (.arr []) = .arr (entriesOf k (lists k))

/-- All but the lists of a task is as in another task. -/
structure SameElsewhere (task metaData autopilot task' metaData' autopilot' : Dict) : Prop where
  task : ∀ j ≠ "meta", Assoc.get? task' j = Assoc.get? task j
  metaData : ∀ j ≠ "autopilot", Assoc.get? metaData' j = Assoc.get? metaData j
  autopilot : ∀ j, (∀ k : RunList, j ≠ k.key) → Assoc.get? autopilot' j = Assoc.get? autopilot j

theorem SameElsewhere.refl (task metaData autopilot : Dict) :
    SameElsewhere task metaData autopilot task metaData autopilot :=
  ⟨fun _ _ => rfl, fun _ _ => rfl, fun _ _ => rfl⟩

theorem SameElsewhere.trans {t₁ m₁ a₁ t₂ m₂ a₂ t₃ m₃ a₃ : Dict}
    (h : SameElsewhere t₁ m₁ a₁ t₂ m₂ a₂) (h' : SameElsewhere t₂ m₂ a₂ t₃ m₃ a₃) :
    SameElsewhere t₁ m₁ a₁ t₃ m₃ a₃ :=
  ⟨fun j hj => (h'.task j hj).trans (h.task j hj),
    fun j hj => (h'.metaData j hj).trans (h.metaData j hj),
    fun j hj => (h'.autopilot j hj).trans (h.autopilot j hj)⟩

theorem RunList.key_ne {k k' : RunList} (h : k' ≠ k) : k'.key ≠ k.key := by
  cases k <;> cases k' <;> first | exact absurd rfl h | decide

theorem getD_set (d : Dict) (k j : String) (v dflt : Json) :
    Dict.getD (Assoc.set d k v) j dflt = if j = k then v else Dict.getD d j dflt := by
  unfold Dict.getD
  rw [Assoc.get?_set]
  split <;> rfl

/-- **A list that is closed again** is the only change. -/
theorem find_spec {lists : RunList → List Recording}
    (h : HasMemory task metaData autopilot lists) :
    ∃ slot, AutopilotSlot.find (.obj task) = .ok slot ∧ slot.autopilot = .obj autopilot ∧
      ∀ (k : RunList) (l : List Recording) (around : Dict),
        (∀ j ≠ k.key, Assoc.get? around j = Assoc.get? autopilot j) →
        (∀ F, (Json.obj autopilot).WellFormed F → (Json.obj around).WellFormed F) →
        ∃ task' metaData' autopilot',
          slot.close (Assoc.set around k.key (.arr (entriesOf k l))) = task' ∧
          SameElsewhere task metaData autopilot task' metaData' autopilot' ∧
          HasMemory task' metaData' autopilot' (Function.update lists k l) ∧
          ∀ F, (Json.obj task).WellFormed F → (Json.obj task').WellFormed F := by
  have hnil : ∀ F, (Json.obj []).WellFormed F := fun F => ⟨List.nodup_nil, trivial⟩
  obtain ⟨task₁, htask, hsame, hwf⟩ := setdefault_obj task "meta" (.obj [])
  obtain ⟨meta₁, hmeta, hsame', hwf'⟩ := setdefault_obj metaData "autopilot" (.obj [])
  rw [h.inTask] at htask hwf
  rw [h.inMeta] at hmeta hwf'
  refine ⟨⟨task₁, meta₁, .obj autopilot⟩, ?_, rfl, fun k l around haround hwell => ?_⟩
  · unfold AutopilotSlot.find
    rw [htask, ok_bind]
    dsimp only
    rw [hmeta]
    rfl
  · refine ⟨_, Assoc.set meta₁ "autopilot" (.obj (Assoc.set around k.key (.arr (entriesOf k l)))),
      Assoc.set around k.key (.arr (entriesOf k l)), rfl, ⟨fun j hj => ?_, fun j hj => ?_,
      fun j hj => ?_⟩, ⟨?_, ?_, fun k' => ?_⟩, fun F hF => ?_⟩
    · exact (Assoc.get?_set task₁ "meta" j _).trans (by rw [if_neg hj, hsame j hj])
    · rw [Assoc.get?_set, if_neg hj, hsame' j hj]
    · rw [Assoc.get?_set, if_neg (hj k), haround j (hj k)]
    · exact (getD_set _ _ _ _ _).trans (if_pos rfl)
    · exact (getD_set _ _ _ _ _).trans (if_pos rfl)
    · rw [getD_set]
      by_cases hk : k' = k
      · rw [hk, if_pos rfl, Function.update_self]
      · rw [if_neg (RunList.key_ne hk), Function.update_of_ne hk, ← h.lists k']
        unfold Dict.getD
        rw [haround _ (RunList.key_ne hk)]
    · obtain ⟨htask₁, hmeta₀⟩ := hwf F hF (hnil F)
      obtain ⟨hmeta₁, hautopilot⟩ := hwf' F hmeta₀ (hnil F)
      exact htask₁.set (hmeta₁.set ((hwell F hautopilot).set (entries_wellFormed k l)))

/-! ### One call -/

/-- The file of a task holds a dictionary. -/
structure Desk.HoldsTask (env : DeskEnv) (d : Desk) (taskId path : String) (task : Dict) :
    Prop where
  located : taskRawPath d.files taskId = .ok path
  file : ∃ content text, Assoc.get? d.files path = some content ∧
    decodeUtf8 content = some text ∧ Json.loads env.floats text = some (.obj task)

/-- What the call of `_write_task_raw` leaves of the desk. -/
def Desk.putTask (env : DeskEnv) (d : Desk) (path : String) (task : Dict) : Desk :=
  { d with files := Assoc.set d.files path <|
      encodeUtf8 ((Json.obj task).pretty env.floats 0 ++ ['\n']) }

theorem taskRawPath_set {files : Assoc String Bytes} {content content' : Bytes}
    (hpath : taskRawPath files taskId = .ok path) (hfile : Assoc.get? files path = some content) :
    taskRawPath (Assoc.set files path content') taskId = .ok path := by
  have hmem : path ∈ Assoc.keys files := Assoc.mem_keys_of_get? hfile
  have hkeys : Assoc.keys (Assoc.set files path content') = Assoc.keys files := by
    rw [Assoc.keys_set, if_pos hmem]
  have hsome : ∀ name, (Assoc.get? (Assoc.set files path content') name).isSome =
      (Assoc.get? files name).isSome := by
    intro name
    rw [Bool.eq_iff_iff, Assoc.get?_isSome_iff, Assoc.get?_isSome_iff, hkeys]
  unfold taskRawPath at hpath ⊢
  rw [hkeys, hsome]
  exact hpath

/-- The desk behind the call holds the new dictionary. -/
theorem Desk.HoldsTask.putTask {task' : Dict} (h : d.HoldsTask env taskId path task)
    (hwf : (Json.obj task').WellFormed env.floats) :
    (d.putTask env path task').HoldsTask env taskId path task' := by
  obtain ⟨content, text, hfile, -, -⟩ := h.file
  refine ⟨taskRawPath_set h.located hfile, _, _, (Assoc.get?_set _ _ _ _).trans (if_pos rfl),
    decodeUtf8_encodeUtf8 _, ?_⟩
  rw [Json.loads_pretty, Json.reread_of_wellFormed hwf]

/-- The call of `_write_task_raw`. -/
theorem run_rewriteTask {α : Type} {mutate : Json → Effect Desk (Dict × α)}
    (h : d.HoldsTask env taskId path task) {task' : Dict} {a : α}
    (hmutate : (mutate (.obj task)).run d = (.ok (task', a), d')) :
    (∃ e text, env.refusal text = some e ∧
        (rewriteTask env taskId mutate).run d = (.error e, d)) ∨
      (rewriteTask env taskId mutate).run d = (.ok (path, a), d'.putTask env path task') := by
  obtain ⟨content, text, hfile, htext, hload⟩ := h.file
  have hread : readTaskBytes d.files path = .ok content := by
    unfold readTaskBytes
    rw [hfile]
    rfl
  have hdecode : decodeTask content = .ok text := by
    unfold decodeTask
    rw [htext]
    rfl
  unfold rewriteTask
  rw [Effect.run_get_bind, Effect.run_lift_bind, h.located]
  dsimp only
  rw [Effect.run_lift_bind, hread]
  dsimp only
  rw [Effect.run_lift_bind, hdecode]
  dsimp only
  rw [Effect.run_lift_bind]
  -- the text reads as the task, unless the reader refuses it as too deep or too long
  cases hrefusal : env.refusal text with
  | some e =>
    have hloadTask : loadTaskJson env text = .error e := by
      unfold loadTaskJson
      rw [hrefusal]
      rfl
    rw [hloadTask]
    exact .inl ⟨e, text, hrefusal, rfl⟩
  | none =>
    have hloadTask : loadTaskJson env text = .ok (.obj task) := by
      unfold loadTaskJson
      rw [hrefusal, hload]
      rfl
    rw [hloadTask]
    dsimp only
    rw [Effect.run_bind_of_ok hmutate]
    exact .inr rfl

/-- The lists after what a call did. -/
def memoryStep (lists : RunList → List Recording) : MemoryEvent → RunList → List Recording
  | .attempt r => Function.update lists .attempts
      (Recent.put maxAttempts Recording.pair (lists .attempts) r)
  | .success r => Function.update lists .successes
      (Recent.put maxAttempts Recording.pair (lists .successes) r)
  | .cleared => Function.update lists .attempts []

/-- What a call makes of a desk that holds a task, and of the task. -/
structure Desk.Records (env : DeskEnv) (d : Desk) (taskId path : String)
    (task metaData autopilot : Dict) (lists : RunList → List Recording) (d' : Desk)
    (task' metaData' autopilot' : Dict) : Prop where
  holds : d'.HoldsTask env taskId path task'
  same : SameElsewhere task metaData autopilot task' metaData' autopilot'
  memory : HasMemory task' metaData' autopilot' lists
  others : ∀ name ≠ path, Assoc.get? d'.files name = Assoc.get? d.files name

variable {lists : RunList → List Recording}

/-- A call whose new dictionary has one list closed again. -/
theorem Desk.records_putTask (hF : env.floats.Reads) (h : d.HoldsTask env taskId path task)
    (hfiles : d'.files = d.files) {task' metaData' autopilot' : Dict}
    (hsame : SameElsewhere task metaData autopilot task' metaData' autopilot')
    (hmemory : HasMemory task' metaData' autopilot' lists)
    (hwf : ∀ F, (Json.obj task).WellFormed F → (Json.obj task').WellFormed F) :
    d.Records env taskId path task metaData autopilot lists (d'.putTask env path task')
      task' metaData' autopilot' := by
  have h' : d'.HoldsTask env taskId path task := by
    refine ⟨?_, ?_⟩ <;> rw [hfiles]
    · exact h.located
    · exact h.file
  obtain ⟨_, _, -, -, hload⟩ := h.file
  refine ⟨h'.putTask (hwf _ (Json.wellFormed_of_loads hF hload)), hsame, hmemory,
    fun name hname => ?_⟩
  exact (Assoc.get?_set _ _ _ _).trans (by rw [if_neg hname, hfiles])

/-- `_mutate` of a recording. -/
theorem run_mutateRecord (hm : HasMemory task metaData autopilot lists) (k : RunList)
    (report : RunReport) :
    ∃ d' task' metaData' autopilot',
      (mutateRecord env k report (.obj task)).run d = (.ok (task', ()), d') ∧
      d'.files = d.files ∧ SameElsewhere task metaData autopilot task' metaData' autopilot' ∧
      HasMemory task' metaData' autopilot' (Function.update lists k
        (Recent.put maxAttempts Recording.pair (lists k)
          { report with ts := env.board.now d.board.ticks })) ∧
      ∀ F, (Json.obj task).WellFormed F → (Json.obj task').WellFormed F := by
  obtain ⟨slot, hfind, hslot, hclose⟩ := find_spec hm
  obtain ⟨around, haround, hother, hwf⟩ := setdefault_obj autopilot k.key (.arr [])
  obtain ⟨task', metaData', autopilot', htask, hsame, hmemory, hwell⟩ :=
    hclose k (Recent.put maxAttempts Recording.pair (lists k)
      { report with ts := env.board.now d.board.ticks }) around hother
      fun F hF => (hwf F hF trivial).1
  rw [hm.lists k] at haround
  refine ⟨{ d with board := { d.board with ticks := d.board.ticks + 1 } }, task', metaData',
    autopilot', ?_, rfl, hsame, hmemory, hwell⟩
  unfold mutateRecord
  rw [Effect.run_lift_bind, hfind]
  dsimp only
  rw [hslot, Effect.run_lift_bind, haround]
  dsimp only
  have hnow : (Desk.onBoard (drawNow env.board)).run d =
      (.ok (env.board.now d.board.ticks),
        { d with board := { d.board with ticks := d.board.ticks + 1 } }) := rfl
  rw [Effect.run_bind_of_ok hnow, Effect.run_lift_bind, recordEntry_entries]
  dsimp only
  rw [htask]
  rfl

/-- `_mutate` of `clear_attempts`. -/
theorem run_mutateClear (hm : HasMemory task metaData autopilot lists) :
    ∃ task' metaData' autopilot' removed,
      (mutateClear (.obj task)).run d = (.ok (task', removed), d) ∧
      SameElsewhere task metaData autopilot task' metaData' autopilot' ∧
      HasMemory task' metaData' autopilot' (Function.update lists .attempts []) ∧
      ∀ F, (Json.obj task).WellFormed F → (Json.obj task').WellFormed F := by
  obtain ⟨slot, hfind, hslot, hclose⟩ := find_spec hm
  obtain ⟨task', metaData', autopilot', htask, hsame, hmemory, hwell⟩ :=
    hclose .attempts [] autopilot (fun _ _ => rfl) fun _ hF => hF
  have hattempts := hm.lists .attempts
  have hremoved : ∃ removed, ((Dict.get autopilot "attempts").orElse (.arr [])).iter =
      .ok removed := by
    unfold Dict.getD at hattempts
    unfold Dict.get
    cases hget : Assoc.get? autopilot "attempts" with
    | none => exact ⟨[], rfl⟩
    | some v =>
      have hv : v = .arr (entriesOf .attempts (lists .attempts)) := by
        have hkey : RunList.attempts.key = "attempts" := rfl
        rw [hkey, hget] at hattempts
        exact hattempts
      rw [hv, Option.getD_some]
      unfold Json.orElse
      split <;> exact ⟨_, rfl⟩
  obtain ⟨removed, hremoved⟩ := hremoved
  refine ⟨task', metaData', autopilot', removed, ?_, hsame, hmemory, hwell⟩
  unfold mutateClear
  rw [Effect.run_lift_bind, hfind]
  dsimp only
  have hget : slot.autopilot.getAttr "attempts" = .ok (Dict.get autopilot "attempts") := by
    rw [hslot]
    rfl
  rw [Effect.run_lift_bind, hget]
  dsimp only
  rw [Effect.run_lift_bind, hremoved]
  dsimp only
  rw [hslot]
  exact congrArg (fun t => (Except.ok (t, removed), d)) htask

/-- **One call** raises what the reader of the file does, or puts its entry into its list. -/
theorem perform_spec (hF : env.floats.Reads) (h : d.HoldsTask env taskId path task)
    (hm : HasMemory task metaData autopilot lists) (call : MemoryCall) :
    (∃ e text, env.refusal text = some e ∧ (call.perform env taskId).run d = (.error e, d)) ∨
      ∃ d' task' metaData' autopilot', (call.perform env taskId).run d = (.ok (), d') ∧
        d.Records env taskId path task metaData autopilot
          (memoryStep lists (call.event (env.board.now d.board.ticks))) d'
          task' metaData' autopilot' := by
  cases call with
  | recordAttempt report =>
    obtain ⟨d', task', metaData', autopilot', hrun, hfiles, hsame, hmemory, hwf⟩ :=
      @run_mutateRecord env d _ _ _ _ hm .attempts report
    rcases run_rewriteTask h hrun with ⟨e, text, hrefusal, hraise⟩ | hwrite
    · refine .inl ⟨e, text, hrefusal, Effect.run_bind_of_error (Effect.run_bind_of_error hraise)⟩
    · have hcall : (recordAttempt env taskId report).run d =
          (.ok path, d'.putTask env path task') := Effect.run_bind_of_ok hwrite
      exact .inr ⟨_, task', metaData', autopilot', Effect.run_bind_of_ok hcall,
        Desk.records_putTask hF h hfiles hsame hmemory hwf⟩
  | recordSuccess report =>
    obtain ⟨d', task', metaData', autopilot', hrun, hfiles, hsame, hmemory, hwf⟩ :=
      @run_mutateRecord env d _ _ _ _ hm .successes report
    rcases run_rewriteTask h hrun with ⟨e, text, hrefusal, hraise⟩ | hwrite
    · refine .inl ⟨e, text, hrefusal, Effect.run_bind_of_error (Effect.run_bind_of_error hraise)⟩
    · have hcall : (recordSuccess env taskId report).run d =
          (.ok path, d'.putTask env path task') := Effect.run_bind_of_ok hwrite
      exact .inr ⟨_, task', metaData', autopilot', Effect.run_bind_of_ok hcall,
        Desk.records_putTask hF h hfiles hsame hmemory hwf⟩
  | clearAttempts =>
    obtain ⟨task', metaData', autopilot', removed, hrun, hsame, hmemory, hwf⟩ :=
      run_mutateClear (d := d) hm
    rcases run_rewriteTask h hrun with ⟨e, text, hrefusal, hraise⟩ | hwrite
    · refine .inl ⟨e, text, hrefusal, Effect.run_bind_of_error (Effect.run_bind_of_error hraise)⟩
    · have hcall : (clearAttempts env taskId).run d =
          (.ok removed, d.putTask env path task') := Effect.run_bind_of_ok hwrite
      exact .inr ⟨_, task', metaData', autopilot', Effect.run_bind_of_ok hcall,
        Desk.records_putTask hF h rfl hsame hmemory hwf⟩

/-! ### All calls -/

/-- What tells what was done in one list. -/
def recordingsIn : RunList → List MemoryEvent → List Recording
  | .attempts => attemptsIn
  | .successes => successesIn

theorem attemptsIn_concat (events : List MemoryEvent) (e : MemoryEvent) :
    attemptsIn (events ++ [e]) = match e with
      | .attempt r => attemptsIn events ++ [r]
      | .success _ => attemptsIn events
      | .cleared => [] := List.foldl_concat ..

theorem successesIn_concat (events : List MemoryEvent) (e : MemoryEvent) :
    successesIn (events ++ [e]) = match e with
      | .success r => successesIn events ++ [r]
      | _ => successesIn events := List.foldl_concat ..

/-- The lists after what the calls did. -/
theorem foldl_memoryStep (events : List MemoryEvent) :
    events.foldl memoryStep (fun _ => []) =
      fun k => Recent.run maxAttempts Recording.pair (recordingsIn k events) := by
  induction events using List.reverseRecOn with
  | nil =>
    funext k
    cases k <;> rfl
  | append_singleton events e ih =>
    rw [List.foldl_concat, ih]
    funext k
    cases e <;> cases k <;>
      simp [memoryStep, recordingsIn, attemptsIn_concat, successesIn_concat, Recent.run]

/-- The calls from a desk that holds a task, one after the other. -/
theorem performAll_spec (hF : env.floats.Reads) : ∀ (calls : List MemoryCall) {d : Desk}
    {task metaData autopilot : Dict} {lists : RunList → List Recording},
    d.HoldsTask env taskId path task → HasMemory task metaData autopilot lists →
      ∃ task' metaData' autopilot',
        d.Records env taskId path task metaData autopilot
          ((performAll env taskId calls d).1.foldl memoryStep lists)
          (performAll env taskId calls d).2 task' metaData' autopilot'
  | [], d, task, metaData, autopilot, lists, h, hm =>
    ⟨task, metaData, autopilot, h, .refl _ _ _, hm, fun _ _ => rfl⟩
  | call :: calls, d, task, metaData, autopilot, lists, h, hm => by
    unfold performAll
    rcases perform_spec hF h hm call with ⟨e, text, -, hrun⟩ |
      ⟨d₁, task₁, meta₁, autopilot₁, hrun, hrecords⟩
    · rw [hrun]
      exact performAll_spec hF calls h hm
    · rw [hrun]
      obtain ⟨task', metaData', autopilot', hrest⟩ :=
        performAll_spec hF calls hrecords.holds hrecords.memory
      exact ⟨task', metaData', autopilot', hrest.holds, hrecords.same.trans hrest.same,
        hrest.memory, fun name hname => (hrest.others name hname).trans (hrecords.others name hname)⟩

/-- Every call returns when the reader refuses nothing. -/
theorem length_performAll (hF : env.floats.Reads) (hreads : ∀ text, env.refusal text = none) :
    ∀ (calls : List MemoryCall) {d : Desk} {task metaData autopilot : Dict}
      {lists : RunList → List Recording}, d.HoldsTask env taskId path task →
        HasMemory task metaData autopilot lists →
          (performAll env taskId calls d).1.length = calls.length
  | [], _, _, _, _, _, _, _ => rfl
  | call :: calls, d, task, metaData, autopilot, lists, h, hm => by
    unfold performAll
    rcases perform_spec hF h hm call with ⟨e, text, hrefusal, -⟩ |
      ⟨d₁, task₁, meta₁, autopilot₁, hrun, hrecords⟩
    · rw [hreads text] at hrefusal
      cases hrefusal
    · rw [hrun]
      exact congrArg (· + 1)
        (length_performAll hF hreads calls hrecords.holds hrecords.memory)

/-- **The memory after any calls** on a task that began without entries: each list has the last ten
pairs that arrived in it, each with its latest entry, and nothing else of the file has changed. -/
theorem memory_of_calls (hF : env.floats.Reads) (h : d.HoldsTask env taskId path task)
    (hempty : HasMemory task metaData autopilot fun _ => []) (calls : List MemoryCall) :
    ∃ task' metaData' autopilot' attempts successes,
      (performAll env taskId calls d).2.HoldsTask env taskId path task' ∧
      Dict.getD task' "meta" (.obj []) = .obj metaData' ∧
      Dict.getD metaData' "autopilot" (.obj []) = .obj autopilot' ∧
      Dict.getD autopilot' "attempts" (.arr []) = .arr (entriesOf .attempts attempts) ∧
      Dict.getD autopilot' "successes" (.arr []) = .arr (entriesOf .successes successes) ∧
      Recent.Keeps 10 Recording.pair (attemptsIn (performAll env taskId calls d).1) attempts ∧
      Recent.Keeps 10 Recording.pair (successesIn (performAll env taskId calls d).1) successes ∧
      (∀ j ≠ "meta", Assoc.get? task' j = Assoc.get? task j) ∧
      (∀ j ≠ "autopilot", Assoc.get? metaData' j = Assoc.get? metaData j) ∧
      (∀ j, j ≠ "attempts" → j ≠ "successes" →
        Assoc.get? autopilot' j = Assoc.get? autopilot j) ∧
      (∀ name ≠ path, Assoc.get? (performAll env taskId calls d).2.files name =
        Assoc.get? d.files name) ∧
      ((∀ text, env.refusal text = none) →
        (performAll env taskId calls d).1.length = calls.length) := by
  obtain ⟨task', metaData', autopilot', hrecords⟩ := performAll_spec hF calls h hempty
  rw [foldl_memoryStep] at hrecords
  refine ⟨task', metaData', autopilot', _, _, hrecords.holds, hrecords.memory.inTask,
    hrecords.memory.inMeta, hrecords.memory.lists .attempts, hrecords.memory.lists .successes,
    Recent.keeps_run _, Recent.keeps_run _, hrecords.same.task, hrecords.same.metaData,
    fun j hattempts hsuccesses => hrecords.same.autopilot j fun k => ?_, hrecords.others,
    fun hreads => length_performAll hF hreads calls h hempty⟩
  cases k with
  | attempts => exact hattempts
  | successes => exact hsuccesses

/-- A build that failed its checks. -/
def failedRun (runId : String) : RunReport where
  runId := runId
  round := 1
  outcome := "ci_red"
  tried := "a retry"
  why := "a test is red"

/-- A run that is recorded, cleared and recorded again behind another one. -/
def sampleCalls : List MemoryCall :=
  [.recordAttempt (failedRun "r1"), .recordSuccess (failedRun "r1"), .clearAttempts,
    .recordAttempt (failedRun "r2"), .recordAttempt (failedRun "r1"),
    .recordAttempt (failedRun "r2")]

/-- A task without entries. -/
def freshDesk : Desk where
  board := {}
  files := [("t1-one.json", encodeUtf8 ['{', '"', 't', 'a', 'g', 's', '"', ':', '[', ']', '}'])]

/-- Six calls, a clearing among them: the list of attempts holds each pair once, and the tags of the
task are untouched. -/
theorem memory_of_calls_cleared : ∃ task metaData autopilot attempts,
    (performAll unaryDeskEnv "t1" sampleCalls freshDesk).2.HoldsTask unaryDeskEnv "t1"
        "t1-one.json" task ∧
      Dict.getD task "tags" .null = .arr [] ∧
      Dict.getD task "meta" (.obj []) = .obj metaData ∧
      Dict.getD metaData "autopilot" (.obj []) = .obj autopilot ∧
      Dict.getD autopilot "attempts" (.arr []) = .arr (entriesOf .attempts attempts) ∧
      attempts.length ≤ 10 ∧ (attempts.map Recording.pair).Nodup ∧
      (performAll unaryDeskEnv "t1" sampleCalls freshDesk).1.length = 6 := by
  have hload : Json.loads unaryDeskEnv.floats
      ['{', '"', 't', 'a', 'g', 's', '"', ':', '[', ']', '}'] = some (.obj [("tags", .arr [])]) :=
    rfl
  have hpath : (taskRawPath freshDesk.files "t1").toOption = some "t1-one.json" := by
    decide +kernel
  obtain ⟨task, metaData, autopilot, attempts, successes, hholds, hmeta, hautopilot, hattempts,
    -, hkept, -, hsame, -, -, -, hlength⟩ :=
    @memory_of_calls unaryDeskEnv freshDesk "t1" "t1-one.json" [("tags", .arr [])] [] []
      zeroFloats_reads ⟨toOption_eq_some.mp hpath, _, _, rfl, decodeUtf8_encodeUtf8 _, hload⟩
      ⟨rfl, rfl, fun k => by cases k <;> rfl⟩ sampleCalls
  refine ⟨task, metaData, autopilot, attempts, hholds, ?_, hmeta, hautopilot, hattempts,
    hkept.length_le, hkept.nodup, hlength fun _ => rfl⟩
  unfold Dict.getD
  rw [hsame "tags" (by decide)]
  rfl

end SkCoord
