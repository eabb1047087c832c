import SkCoord.Coordination.Equiv.InStep
import SkCoord.Lifecycle.Equiv.Receipts

/-!
# A repair tells the truth

A repair that raises has put the files back, and its identifier carries no `committed`, when no append
leaves part of a line, the append of `committed` leaves nothing where it fails and no append of
`recovered` fails (`RepairCall.KeepsReceipts`).  `run_repairLifecycle` is one call, `receipts_truthful`
a run of calls; `recovered_fails` is a call whose last append fails.
-/

namespace SkCoord

open Python Effect

variable {env : LifecycleEnv} {h h' h'' : LifecycleHome} {call : RepairCall} {stamp : RepairStamp}
  {before : LifecycleAudit} {unresolved : List (String × Option (List String))} {staged : Staged}

/-! ### What an append adds -/

/-- A receipt as it stands in its log. -/
def receiptLine (receiptId phase : String) (fields : Dict) : LogLine :=
  .value (.obj (("receipt_id", .str receiptId) :: ("phase", .str phase) :: fields))

theorem entry_receiptLine (receiptId phase : String) (fields : Dict) :
    (receiptLine receiptId phase fields).entry = some (receiptId, phase) := rfl

/-- The receipt logs have these lines more, each of them whole. -/
structure LifecycleHome.Adds (h h' : LifecycleHome) (L : List LogLine) : Prop where
  lines : ∀ line, h'.HasLine line ↔ h.HasLine line ∨ line ∈ L
  terminated : ∀ p ∈ h'.receipts, p.2.terminated = true
  ticks : h'.ticks = h.ticks

theorem LifecycleHome.Adds.refl (hterm : ∀ p ∈ h.receipts, p.2.terminated = true) : h.Adds h [] :=
  ⟨fun line => by simp, hterm, rfl⟩

theorem LifecycleHome.Adds.trans {L M : List LogLine} (h1 : h.Adds h' L) (h2 : h'.Adds h'' M) :
    h.Adds h'' (L ++ M) := by
  refine ⟨fun line => ?_, h2.terminated, h2.ticks.trans h1.ticks⟩
  rw [h2.lines, h1.lines, List.mem_append, or_assoc]

/-- Files that change are no receipts. -/
theorem LifecycleHome.Adds.withProjections {L : List LogLine} (h1 : h.Adds h' L)
    (projections : Assoc String Bytes) : h.Adds { h' with projections } L :=
  ⟨h1.lines, h1.terminated, h1.ticks⟩

/-- An old binding is still there behind an update, or it was the one that is read. -/
theorem mem_set_or_get? {d : Assoc String ReceiptLog} {k : String} {v : ReceiptLog}
    {p : String × ReceiptLog} (hp : p ∈ d) :
    p ∈ Assoc.set d k v ∨ Assoc.get? d k = some p.2 := by
  induction d with
  | nil => cases hp
  | cons q d ih =>
    obtain ⟨j, w⟩ := q
    rw [Assoc.set, Assoc.get?]
    split
    · rcases List.mem_cons.mp hp with rfl | hp
      · exact .inr rfl
      · exact .inl (List.mem_cons_of_mem _ hp)
    · rcases List.mem_cons.mp hp with rfl | hp
      · exact .inl List.mem_cons_self
      · exact (ih hp).imp_left (List.mem_cons_of_mem _)

/-- An append that takes its effect adds its line: the log ends in a whole line, so the new one
starts a line of its own, and the other logs stay. -/
theorem adds_withReceipt (hterm : ∀ p ∈ h.receipts, p.2.terminated = true) (file : String)
    (line : LogLine) : h.Adds (h.withReceipt file line true) [line] := by
  have hlog : ((Assoc.get? h.receipts file).getD {}).terminated = true := by
    cases hget : Assoc.get? h.receipts file with
    | none => rfl
    | some log => exact hterm _ (Assoc.mem_of_get? hget)
  -- So the append adds a line to the log and glues it to nothing.
  have happend : ((Assoc.get? h.receipts file).getD {}).append line true =
      ⟨((Assoc.get? h.receipts file).getD {}).lines ++ [line], true⟩ := by
    unfold ReceiptLog.append
    rw [if_pos hlog]
  have hnew : (file, (⟨((Assoc.get? h.receipts file).getD {}).lines ++ [line], true⟩ : ReceiptLog)) ∈
      (h.withReceipt file line true).receipts := by
    unfold LifecycleHome.withReceipt
    dsimp only
    rw [happend]
    exact Assoc.mem_of_get? (Assoc.get?_set_self _ _ _)
  refine ⟨fun x => ⟨?_, ?_⟩, fun p hp => ?_, rfl⟩
  · -- A line of the new logs was there before, or is the new one.
    rintro ⟨p, hp, hx⟩
    unfold LifecycleHome.withReceipt at hp
    dsimp only at hp
    rw [happend] at hp
    rcases Assoc.mem_set hp with rfl | hp
    · rcases List.mem_append.mp hx with hx | hx
      · cases hget : Assoc.get? h.receipts file with
        | none => rw [hget] at hx; exact (List.not_mem_nil hx).elim
        | some log =>
          rw [hget] at hx
          exact .inl ⟨(file, log), Assoc.mem_of_get? hget, hx⟩
      · exact .inr hx
    · exact .inl ⟨p, hp, hx⟩
  · -- Each earlier line is still there, in its own log or in the one that grew.
    rintro (⟨p, hp, hx⟩ | hx)
    · rcases @mem_set_or_get? h.receipts file
          ⟨((Assoc.get? h.receipts file).getD {}).lines ++ [line], true⟩ p hp with hp | hget
      · refine ⟨p, ?_, hx⟩
        unfold LifecycleHome.withReceipt
        dsimp only
        rw [happend]
        exact hp
      · refine ⟨_, hnew, List.mem_append_left _ ?_⟩
        rw [hget]
        exact hx
    · exact ⟨_, hnew, List.mem_append_right _ hx⟩
  · unfold LifecycleHome.withReceipt at hp
    dsimp only at hp
    rw [happend] at hp
    rcases Assoc.mem_set hp with rfl | hp
    · rfl
    · exact hterm p hp

/-- What befalls an append that is not torn. -/
theorem run_appendReceipt (hterm : ∀ p ∈ h.receipts, p.2.terminated = true)
    {faults : RepairWrite → Fault} {actor receiptId phase : String} {fields : Dict}
    (hwhole : (faults (.receipt receiptId phase)).isWhole = true) :
    ∃ r h' L, (appendReceipt env faults actor receiptId phase fields).run h = (r, h') ∧ h.Adds h' L ∧
      h'.projections = h.projections ∧ (L = [] ∨ L = [receiptLine receiptId phase fields]) ∧
      (r = .ok () → L = [receiptLine receiptId phase fields]) ∧
      ∀ e, r = .error e → ∃ took, faults (.receipt receiptId phase) = .fails took e ∧
        (took = false → L = []) := by
  have hadds := adds_withReceipt hterm (receiptFile env actor) (receiptLine receiptId phase fields)
  unfold appendReceipt
  dsimp only
  cases hfault : faults (.receipt receiptId phase) with
  | ok => exact ⟨_, _, _, rfl, hadds, rfl, .inr rfl, fun _ => rfl, fun e he => by cases he⟩
  | fails took e =>
    cases took with
    | true =>
      refine ⟨_, _, _, rfl, hadds, rfl, .inr rfl, (by simp), fun e' he => ?_⟩
      cases he
      exact ⟨true, rfl, fun hno => by cases hno⟩
    | false =>
      refine ⟨_, _, _, rfl, .refl hterm, rfl, .inl rfl, (by simp), fun e' he => ?_⟩
      cases he
      exact ⟨false, rfl, fun _ => rfl⟩
  | torn full e =>
    rw [hfault] at hwhole
    cases hwhole

/-! ### The condition -/

/-- What must not befall the appends of a repair: that one leaves part of its line, that `committed`
is there although its append raised, that a `recovered` fails behind it. -/
structure RepairCall.KeepsReceipts (call : RepairCall) : Prop where
  whole : ∀ receiptId phase, (call.faults (.receipt receiptId phase)).isWhole = true
  committed : ∀ receiptId e, call.faults (.receipt receiptId "committed") = .fails true e → e = .killed
  recovered : ∀ receiptId took e,
    call.faults (.receipt receiptId "recovered") = .fails took e → e = .killed

/-- The writes that put files back succeed. -/
def RepairCall.Restores (call : RepairCall) : Prop := ∀ path, call.faults (.restore path) = .ok

/-- Every agent file is text. -/
def LifecycleHome.AreText (h : LifecycleHome) : Prop :=
  ∀ path bytes, Assoc.get? h.projections path = some bytes → ∃ text, encodeUtf8 text = bytes ∧
    decodeUtf8 bytes = some text

/-! ### Staging -/

/-- The bytes that were put aside are those of the files, and every staged file has some. -/
structure Staged.Keeps (h : LifecycleHome) (s : Staged) : Prop where
  originals : ∀ p ∈ s.originals, p.2 = Assoc.get? h.projections p.1
  pending : ∀ p ∈ s.pending, ∃ path, projectionPath p.2.1.agent = .ok path ∧
    path ∈ Assoc.keys s.originals

theorem keeps_stage (h : LifecycleHome) (a : AgentRecord) : Keeps (Staged.Keeps h) (stage h a) := by
  intro s hs
  unfold stage
  refine run_lift_bind_rule (fun r => Staged.Keeps h r.2) (fun _ => hs) fun path hpath => ?_
  rw [run_modify]
  refine ⟨fun p hp => ?_, fun p hp => ?_⟩
  · dsimp only at hp
    split at hp
    · exact hs.originals p hp
    · rcases Assoc.mem_set hp with rfl | hp
      · rfl
      · exact hs.originals p hp
  · have hkeys : ∀ k, k = path ∨ k ∈ Assoc.keys s.originals →
        k ∈ Assoc.keys (if (Assoc.get? s.originals path).isSome then s.originals
          else Assoc.set s.originals path (Assoc.get? h.projections path)) := by
      intro k hk
      split
      · rename_i hsome
        rcases hk with rfl | hk
        · exact (Assoc.get?_isSome_iff _ _).mp hsome
        · exact hk
      · exact Assoc.mem_keys_set.mpr hk
    rcases Assoc.mem_set hp with rfl | hp
    · exact ⟨path, hpath, hkeys path (.inl rfl)⟩
    · obtain ⟨path', hpath', hmem⟩ := hs.pending p hp
      exact ⟨path', hpath', hkeys path' (.inr hmem)⟩

theorem keeps_modifyStaged {h : LifecycleHome} {f : Staged → Staged}
    (hf : ∀ s, (f s).originals = s.originals ∧ (f s).pending = s.pending) :
    Keeps (Staged.Keeps h) (Effect.modify f) := by
  intro s hs
  obtain ⟨h1, h2⟩ := hf s
  rw [run_modify]
  refine ⟨?_, ?_⟩
  · rw [h1]
    exact hs.originals
  · rw [h1, h2]
    exact hs.pending

theorem keeps_repairAgents {now : String} {stale : Int} {taskIds : Option (List String)}
    {all : Assoc String Card} {h : LifecycleHome} : ∀ agents : List AgentRecord,
    Keeps (Staged.Keeps h) (repairAgents env now stale taskIds all h agents)
  | [] => keeps_pure ()
  | a :: rest => by
    have hturn : Keeps (Staged.Keeps h) (stageAgent env now stale taskIds all h a) := by
      unfold stageAgent
      refine Keeps.bind (keeps_modifyStaged fun s => ⟨rfl, rfl⟩) fun _ => ?_
      split
      · exact keeps_stage h _
      · exact keeps_pure ()
    exact hturn.bind fun _ => keeps_repairAgents rest

theorem keeps_repairOwners {now : String} {taskIds : Option (List String)} {all : Assoc String Card}
    {h : LifecycleHome} : ∀ cards : List Card,
    Keeps (Staged.Keeps h) (repairOwners env now taskIds all h cards)
  | [] => keeps_pure ()
  | c :: rest => by
    have hturn : Keeps (Staged.Keeps h) (stageOwner env now taskIds all h c) := by
      unfold stageOwner
      split
      · refine keeps_get.bind fun s => (keeps_lift _).bind fun a => ?_
        refine Keeps.bind (keeps_modifyStaged fun s => ⟨rfl, rfl⟩) fun _ => ?_
        split
        · exact (keeps_stage h _).bind fun _ => keeps_modifyStaged fun s => ⟨rfl, rfl⟩
        · exact keeps_pure ()
      · exact keeps_pure ()
    exact hturn.bind fun _ => keeps_repairOwners rest

/-! ### Writing and restoring -/

/-- The files outside of the paths are as they were, and so are the receipts. -/
structure LifecycleHome.SavesIn (h h' : LifecycleHome) (paths : List String) : Prop where
  adds : h.Adds h' []
  frame : ∀ path ∉ paths, Assoc.get? h'.projections path = Assoc.get? h.projections path

/-- A write of a file is none of the receipts. -/
theorem keeps_ioProjections {paths : List String} {f : Fault}
    {g : LifecycleHome → Assoc String Bytes} {path : String} (hpath : path ∈ paths)
    (hg : ∀ s, ∀ other, other ≠ path → Assoc.get? (g s) other = Assoc.get? s.projections other) :
    Keeps (fun s => h.SavesIn s paths) (Effect.ioAtomic f fun s => { s with projections := g s }) := by
  refine keeps_io (fun s hs => ⟨hs.adds.withProjections _, fun other hother => ?_⟩) fun _ s hs => hs
  have hne : other ≠ path := fun heq => hother (heq ▸ hpath)
  exact (hg s other hne).trans (hs.frame other hother)

theorem keeps_saveProjections {paths : List String} {faults : RepairWrite → Fault} :
    ∀ {l : List AgentRecord}, (∀ a ∈ l, ∃ path, projectionPath a.1.agent = .ok path ∧ path ∈ paths) →
      Keeps (fun s => h.SavesIn s paths) (saveProjections env faults l)
  | [], _ => keeps_pure ()
  | a :: rest, hpaths => by
    unfold saveProjections
    refine Keeps.bind ?_ fun _ =>
      keeps_saveProjections fun b hb => hpaths b (List.mem_cons_of_mem _ hb)
    obtain ⟨path, hpath, hmem⟩ := hpaths a List.mem_cons_self
    unfold saveProjection
    rw [hpath]
    intro s hs
    exact keeps_ioProjections hmem (fun s other hother => Assoc.get?_set_ne _ _ hother) s hs

theorem keeps_restoreProjections {paths : List String} {faults : RepairWrite → Fault} :
    ∀ {l : List (String × Option Bytes)}, (∀ p ∈ l, p.1 ∈ paths) →
      Keeps (fun s => h.SavesIn s paths) (restoreProjections faults l)
  | [], _ => keeps_pure ()
  | (path, original) :: rest, hpaths => by
    unfold restoreProjections
    refine Keeps.bind ?_ fun _ =>
      keeps_restoreProjections fun b hb => hpaths b (List.mem_cons_of_mem _ hb)
    have hmem : path ∈ paths := hpaths _ List.mem_cons_self
    unfold restoreProjection
    split
    · exact keeps_ioProjections hmem fun s other hother => Assoc.get?_erase_ne _ hother
    · split
      · exact keeps_raise _
      · exact keeps_ioProjections hmem fun s other hother => Assoc.get?_set_ne _ _ hother

/-- Bytes that are text, put back one file after another, are the bytes that were put aside: the
induction is on the files still to be put back, and every file outside them has its bytes
already. -/
theorem run_restoreProjections {faults : RepairWrite → Fault} (hfaults : ∀ path, faults (.restore path) = .ok)
    (htext : h.AreText) : ∀ {l : List (String × Option Bytes)} {s : LifecycleHome},
      (∀ p ∈ l, p.2 = Assoc.get? h.projections p.1) →
      (∀ path, path ∉ l.map Prod.fst → Assoc.get? s.projections path = Assoc.get? h.projections path) →
      ∃ s', (restoreProjections faults l).run s = (.ok (), s') ∧
        ∀ path, Assoc.get? s'.projections path = Assoc.get? h.projections path
  | [], s, _, hs => ⟨s, rfl, fun path => hs path (by simp)⟩
  | (path, original) :: rest, s, horiginals, hs => by
    have horiginal : original = Assoc.get? h.projections path := horiginals _ List.mem_cons_self
    -- One file is put back, or removed where there was none.
    have hone : ∃ projections, (restoreProjection faults path original).run s =
        (.ok (), { s with projections }) ∧ Assoc.get? projections path = original ∧
          ∀ other, other ≠ path → Assoc.get? projections other = Assoc.get? s.projections other := by
      unfold restoreProjection
      cases original with
      | none =>
        refine ⟨Assoc.erase s.projections path, ?_, Assoc.get?_erase_self _ _,
          fun other hother => Assoc.get?_erase_ne _ hother⟩
        dsimp only
        rw [hfaults path]
        rfl
      | some bytes =>
        obtain ⟨text, hencode, hdecode⟩ := htext path bytes horiginal.symm
        refine ⟨Assoc.set s.projections path bytes, ?_, Assoc.get?_set_self _ _ _,
          fun other hother => Assoc.get?_set_ne _ _ hother⟩
        dsimp only
        rw [hdecode, hfaults path]
        dsimp only
        rw [hencode]
        rfl
    obtain ⟨projections, hrun, hpath, hother⟩ := hone
    obtain ⟨s', hrest, hs'⟩ := run_restoreProjections hfaults htext (l := rest)
      (s := { s with projections }) (fun p hp => horiginals p (List.mem_cons_of_mem _ hp))
      fun other hnot => by
        dsimp only
        by_cases heq : other = path
        · rw [heq, hpath, horiginal]
        · rw [hother other heq]
          refine hs other fun hmem => ?_
          rcases List.mem_cons.mp hmem with hmem | hmem
          · exact heq hmem
          · exact hnot hmem
    refine ⟨s', ?_, hs'⟩
    unfold restoreProjections
    rw [run_bind_of_ok hrun]
    exact hrest

/-! ### The writes behind the intent -/

theorem run_appendRecovered {actor receiptId repairedAt : String} {after : LifecycleAudit}
    (hkeeps : call.KeepsReceipts) : ∀ {l : List (String × Option (List String))} {h : LifecycleHome},
      (∀ p ∈ h.receipts, p.2.terminated = true) →
      ∃ r h' L, (appendRecovered env call.faults actor receiptId repairedAt after l).run h = (r, h') ∧
        h.Adds h' L ∧ h'.projections = h.projections ∧
        (∀ line ∈ L, ∃ p ∈ l, ∃ fields, line = receiptLine p.1 "recovered" fields) ∧
        ∀ e, r = .error e → e = .killed
  | [], h, hterm => ⟨_, _, _, rfl, .refl hterm, rfl, by simp, by simp⟩
  | (unresolvedId, scope) :: rest, h, hterm => by
    unfold appendRecovered
    obtain ⟨r, h', L, hrun, hadds, hproj, hL, -, herr⟩ := @run_appendReceipt env h hterm call.faults
      actor unresolvedId "recovered" [("actor", .str actor), ("repaired_at", .str repairedAt),
        ("recovered_by", .str receiptId), ("task_ids", scopeValue scope), ("after", after.toDict)]
      (hkeeps.whole _ _)
    have hline : ∀ line ∈ L, ∃ p ∈ (unresolvedId, scope) :: rest, ∃ fields,
        line = receiptLine p.1 "recovered" fields := by
      intro line hline
      rcases hL with rfl | rfl
      · exact (List.not_mem_nil hline).elim
      · exact ⟨_, List.mem_cons_self, _, List.mem_singleton.mp hline⟩
    cases r with
    | error e =>
      obtain ⟨took, hfault, -⟩ := herr e rfl
      refine ⟨_, _, _, run_bind_of_error hrun, hadds, hproj, hline, fun e' he => ?_⟩
      cases he
      exact hkeeps.recovered _ _ _ hfault
    | ok _ =>
      obtain ⟨r', h'', M, hrest, hadds', hproj', hM, herr'⟩ :=
        run_appendRecovered hkeeps (l := rest) hadds.terminated
      refine ⟨r', h'', L ++ M, (run_bind_of_ok hrun).trans hrest, hadds.trans hadds',
        hproj'.trans hproj, fun line hmem => ?_, herr'⟩
      rcases List.mem_append.mp hmem with hmem | hmem
      · exact hline line hmem
      · obtain ⟨p, hp, fields, heq⟩ := hM line hmem
        exact ⟨p, List.mem_cons_of_mem _ hp, fields, heq⟩

/-- A receipt that a repair writes behind its intent. -/
def IsOutcome (receiptId : String) (unresolved : List (String × Option (List String)))
    (line : LogLine) : Prop :=
  (∃ fields, line = receiptLine receiptId "committed" fields) ∨
    ∃ p ∈ unresolved, ∃ fields, line = receiptLine p.1 "recovered" fields

/-- The writes behind the intent: they touch the projections that were put aside and no other, the
lines they add are outcomes of this receipt or of recovered ones, and where they raise without dying
they have added none. -/
theorem run_commitRepair (hkeeps : call.KeepsReceipts) (hterm : ∀ p ∈ h.receipts, p.2.terminated = true)
    (hstaged : ∀ p ∈ staged.pending, ∃ path, projectionPath p.2.1.agent = .ok path ∧
      path ∈ Assoc.keys staged.originals) :
    ∃ r h' L, (commitRepair env call stamp before unresolved staged).run h = (r, h') ∧ h.Adds h' L ∧
      (∀ path ∉ Assoc.keys staged.originals,
        Assoc.get? h'.projections path = Assoc.get? h.projections path) ∧
      (∀ line ∈ L, IsOutcome stamp.receiptId unresolved line) ∧
      ∀ e, r = .error e → e ≠ .killed → L = [] := by
  have hpaths : ∀ a ∈ staged.pending.map Prod.snd, ∃ path, projectionPath a.1.agent = .ok path ∧
      path ∈ Assoc.keys staged.originals := by
    intro a ha
    obtain ⟨p, hp, rfl⟩ := List.mem_map.mp ha
    exact hstaged p hp
  have hsaved := @keeps_saveProjections env h (Assoc.keys staged.originals) call.faults
    (staged.pending.map Prod.snd) hpaths h ⟨.refl hterm, fun _ _ => rfl⟩
  -- The call runs in three stages, and each may be the one that raises.
  unfold commitRepair
  cases hsave : (saveProjections env call.faults (staged.pending.map Prod.snd)).run h with
  | mk r₁ h₁ =>
    rw [hsave] at hsaved
    obtain ⟨hadds, hframe⟩ := hsaved
    dsimp only at hadds hframe
    cases r₁ with
    | error e => exact ⟨_, _, _, run_bind_of_error hsave, hadds, hframe, by simp, fun _ _ _ => rfl⟩
    | ok _ =>
      rw [run_bind_of_ok hsave, run_get_bind, run_lift_bind]
      cases haudit : auditLifecycle env call.taskIds h₁ with
      | error e => exact ⟨_, _, _, rfl, hadds, hframe, by simp, fun _ _ _ => rfl⟩
      | ok after =>
        dsimp only
        split
        · exact ⟨_, _, _, rfl, hadds, hframe, by simp, fun _ _ _ => rfl⟩
        · -- The files are written and the audit behind them is clean: the `committed` line is next.
          obtain ⟨r₂, h₂, L, hrun, hadds₂, hproj, hL, -, herr⟩ := @run_appendReceipt env h₁
            hadds.terminated call.faults call.actor stamp.receiptId "committed"
            (call.fields stamp before staged.actions ++ [("after", after.toDict)]) (hkeeps.whole _ _)
          have hline : ∀ line ∈ L, IsOutcome stamp.receiptId unresolved line := by
            intro line hline
            rcases hL with rfl | rfl
            · exact (List.not_mem_nil hline).elim
            · exact .inl ⟨_, List.mem_singleton.mp hline⟩
          have hframe₂ : ∀ path ∉ Assoc.keys staged.originals,
              Assoc.get? h₂.projections path = Assoc.get? h.projections path := by
            intro path hpath
            rw [hproj]
            exact hframe path hpath
          cases r₂ with
          | error e =>
            refine ⟨_, _, _, run_bind_of_error hrun, hadds.trans hadds₂, hframe₂, hline,
              fun e' he hne => ?_⟩
            cases he
            -- An append that raises takes no effect, or the process has died behind it.
            obtain ⟨took, hfault, hnone⟩ := herr e rfl
            cases took with
            | true => exact absurd (hkeeps.committed _ _ hfault) hne
            | false => exact hnone rfl
          | ok _ =>
            -- Last the receipts of earlier repairs, which raise only by dying.
            obtain ⟨r₃, h₃, M, hrun₃, hadds₃, hproj₃, hM, herr₃⟩ := @run_appendRecovered env call
              call.actor stamp.receiptId stamp.repairedAt after hkeeps
              (recoverable call.taskIds unresolved) h₂ hadds₂.terminated
            have hlines : ∀ line ∈ [] ++ L ++ M, IsOutcome stamp.receiptId unresolved line := by
              intro line hmem
              rcases List.mem_append.mp hmem with hmem | hmem
              · exact hline line hmem
              · obtain ⟨p, hp, fields, heq⟩ := hM line hmem
                exact .inr ⟨p, List.mem_of_mem_filter hp, fields, heq⟩
            have hframe₃ : ∀ path ∉ Assoc.keys staged.originals,
                Assoc.get? h₃.projections path = Assoc.get? h.projections path := by
              intro path hpath
              rw [hproj₃]
              exact hframe₂ path hpath
            rw [run_bind_of_ok hrun]
            cases r₃ with
            | error e =>
              refine ⟨_, _, _, run_bind_of_error hrun₃, (hadds.trans hadds₂).trans hadds₃, hframe₃,
                hlines, fun e' he hne => ?_⟩
              cases he
              exact absurd (herr₃ e rfl) hne
            | ok _ =>
              exact ⟨_, _, _, run_bind_of_ok hrun₃, (hadds.trans hadds₂).trans hadds₃, hframe₃, hlines,
                by simp⟩

/-! ### The handler -/

/-- The handler raises, puts the files back where it can, and adds `rolled_back` at most. -/
theorem run_rollBack {α : Type} (hkeeps : call.KeepsReceipts)
    (hterm : ∀ p ∈ h'.receipts, p.2.terminated = true)
    (horiginals : ∀ p ∈ staged.originals, p.2 = Assoc.get? h.projections p.1)
    (hframe : ∀ path ∉ Assoc.keys staged.originals,
      Assoc.get? h'.projections path = Assoc.get? h.projections path) (written : Bool) (e : PyError) :
    ∃ e' h'' L, (rollBack env call stamp before staged written e : Effect LifecycleHome α).run h' =
        (.error e', h'') ∧ h'.Adds h'' L ∧
      (L = [] ∨ written = true ∧ ∃ fields, L = [receiptLine stamp.receiptId "rolled_back" fields]) ∧
      (call.Restores → h.AreText →
        ∀ path, Assoc.get? h''.projections path = Assoc.get? h.projections path) := by
  have hmem : ∀ p ∈ staged.originals.reverse, p.1 ∈ Assoc.keys staged.originals :=
    fun p hp => List.mem_map_of_mem (List.mem_reverse.mp hp)
  have hkept := @keeps_restoreProjections h' (Assoc.keys staged.originals) call.faults
    staged.originals.reverse hmem h' ⟨.refl hterm, fun _ _ => rfl⟩
  -- With no failing write, every file has its bytes again.
  have hback : call.Restores → h.AreText → ∃ s', (restoreProjections call.faults
      staged.originals.reverse).run h' = (.ok (), s') ∧
        ∀ path, Assoc.get? s'.projections path = Assoc.get? h.projections path := by
    intro hrestores htext
    refine run_restoreProjections hrestores htext
      (fun p hp => horiginals p (List.mem_reverse.mp hp)) fun path hpath => hframe path fun hkey => ?_
    refine hpath ?_
    rw [List.map_reverse]
    exact List.mem_reverse.mpr hkey
  unfold rollBack
  cases hrestore : (restoreProjections call.faults staged.originals.reverse).run h' with
  | mk r₁ h₁ =>
    rw [hrestore] at hkept
    have hadds : h'.Adds h₁ [] := hkept.adds
    cases r₁ with
    | error e₁ =>
      have hfails : call.Restores → h.AreText →
          ∀ path, Assoc.get? h₁.projections path = Assoc.get? h.projections path := by
        intro hrestores htext
        obtain ⟨s', hrun, -⟩ := hback hrestores htext
        rw [hrestore] at hrun
        cases hrun
      -- A restoring write failed: the handler goes on to raise, or the process has died there.
      by_cases hkilled : e₁ = .killed
      · subst hkilled
        exact ⟨_, _, _, run_bind_of_error (run_tryExcept_of_killed hrestore), hadds, .inl rfl, hfails⟩
      · exact ⟨_, _, _, run_bind_of_error ((run_tryExcept_of_error hrestore hkilled).trans rfl), hadds,
          .inl rfl, hfails⟩
    | ok _ =>
      have hsame : call.Restores → h.AreText →
          ∀ path, Assoc.get? h₁.projections path = Assoc.get? h.projections path := by
        intro hrestores htext
        obtain ⟨s', hrun, hs'⟩ := hback hrestores htext
        rw [hrestore] at hrun
        cases hrun
        exact hs'
      rw [run_bind_of_ok (run_tryExcept_of_ok hrestore)]
      cases written with
      | false =>
        rw [if_neg Bool.false_ne_true]
        exact ⟨_, _, _, rfl, hadds, .inl rfl, hsame⟩
      | true =>
        rw [if_pos rfl]
        -- The intent was written, so the handler records the roll-back, and swallows a failure of
        -- that.
        obtain ⟨r₂, h₂, L, hrun, hadds₂, hproj, hL, -, -⟩ := @run_appendReceipt env h₁ hadds.terminated
          call.faults call.actor stamp.receiptId "rolled_back" (call.fields stamp before staged.actions)
          (hkeeps.whole _ _)
        have hend : ∃ e', (tryExcept (appendReceipt env call.faults call.actor stamp.receiptId
            "rolled_back" (call.fields stamp before staged.actions)) (fun _ => pure ()) >>=
              fun _ => (Effect.raise e : Effect LifecycleHome α)).run h₁ = (.error e', h₂) := by
          cases r₂ with
          | ok _ => exact ⟨e, run_bind_of_ok (run_tryExcept_of_ok hrun)⟩
          | error e₂ =>
            by_cases hkilled : e₂ = .killed
            · subst hkilled
              exact ⟨_, run_bind_of_error (run_tryExcept_of_killed hrun)⟩
            · exact ⟨e, run_bind_of_ok (run_tryExcept_of_error hrun hkilled)⟩
        obtain ⟨e', hend⟩ := hend
        refine ⟨e', h₂, [] ++ L, hend, hadds.trans hadds₂, ?_, fun hrestores htext path => ?_⟩
        · rcases hL with rfl | rfl
          · exact .inl rfl
          · exact .inr ⟨rfl, _, rfl⟩
        · rw [hproj]
          exact hsame hrestores htext path

/-! ### One call -/

/-- The intent of a repair. -/
def intentLine (call : RepairCall) (stamp : RepairStamp) (before : LifecycleAudit) (staged : Staged) :
    LogLine :=
  receiptLine stamp.receiptId "intent" (call.fields stamp before staged.actions ++
    [("projection_agents", .arr (((Assoc.keys staged.pending).insertionSort
        fun x y => x ≤ y).map .str)),
      ("task_ids", scopeValue call.taskIds)])

/-- A receipt that a repair may write. -/
def IsRepairLine (call : RepairCall) (stamp : RepairStamp) (before : LifecycleAudit) (staged : Staged)
    (unresolved : List (String × Option (List String))) (line : LogLine) : Prop :=
  line = intentLine call stamp before staged ∨ IsOutcome stamp.receiptId unresolved line ∨
    ∃ fields, line = receiptLine stamp.receiptId "rolled_back" fields

/-- No line of the list has the identifier in the phase. -/
def NoneIs (L : List LogLine) (receiptId phase : String) : Prop :=
  ∀ line ∈ L, line.entry ≠ some (receiptId, phase)

theorem NoneIs.append {L M : List LogLine} {receiptId phase : String} (hL : NoneIs L receiptId phase)
    (hM : NoneIs M receiptId phase) : NoneIs (L ++ M) receiptId phase :=
  fun line hline => (List.mem_append.mp hline).elim (hL line) (hM line)

theorem noneIs_nil {receiptId phase : String} : NoneIs [] receiptId phase :=
  fun _ h => (List.not_mem_nil h).elim

theorem noneIs_singleton {receiptId phase phase' : String} {fields : Dict} (hne : phase ≠ phase') :
    NoneIs [receiptLine receiptId phase fields] receiptId phase' := by
  intro line hline heq
  rw [List.mem_singleton.mp hline, entry_receiptLine] at heq
  exact hne (Prod.mk.inj (Option.some.inj heq)).2

/-- The outcomes that a repair writes in its `try` are no roll back. -/
theorem noneIs_outcomes {L : List LogLine} {receiptId : String}
    (hL : ∀ line ∈ L, IsOutcome receiptId unresolved line) : NoneIs L receiptId "rolled_back" := by
  intro line hline heq
  rcases hL line hline with ⟨fields, rfl⟩ | ⟨p, -, fields, rfl⟩
  · rw [entry_receiptLine] at heq
    exact absurd (Prod.mk.inj (Option.some.inj heq)).2 (by decide)
  · rw [entry_receiptLine] at heq
    exact absurd (Prod.mk.inj (Option.some.inj heq)).2 (by decide)

/-- What a repair leaves: lines of its own, not both `committed` and `rolled_back`, and the files as
they were where it raised. -/
structure Truthfully (call : RepairCall) (stamp : RepairStamp) (before : LifecycleAudit)
    (staged : Staged) (unresolved : List (String × Option (List String))) (h h' : LifecycleHome)
    (r : Except PyError LifecycleRepairReceipt) (L : List LogLine) : Prop where
  adds : h.Adds h' L
  lines : ∀ line ∈ L, IsRepairLine call stamp before staged unresolved line
  once : NoneIs L stamp.receiptId "committed" ∨ NoneIs L stamp.receiptId "rolled_back"
  raises : ∀ e, r = .error e → e ≠ .killed → NoneIs L stamp.receiptId "committed" ∧
    (call.Restores → h.AreText → ∀ path,
      Assoc.get? h'.projections path = Assoc.get? h.projections path)

/-- The `try` of the repair, behind the staging: the cases are where it raises. -/
theorem run_journalRepair (hkeeps : call.KeepsReceipts)
    (hterm : ∀ p ∈ h.receipts, p.2.terminated = true) (hstaged : staged.Keeps h)
    (result : Except PyError Unit) :
    ∃ r h' L, (journalRepair env call stamp before unresolved result staged).run h = (r, h') ∧
      Truthfully call stamp before staged unresolved h h' r L := by
  -- the body up to the intent
  have hintent : ∃ r₁ h₁ L₁, ((do
      Effect.lift result
      appendReceipt env call.faults call.actor stamp.receiptId "intent"
        (call.fields stamp before staged.actions ++
          [("projection_agents", .arr (((Assoc.keys staged.pending).insertionSort
              fun x y => x ≤ y).map .str)),
            ("task_ids", scopeValue call.taskIds)]) : Effect LifecycleHome Unit).run h) = (r₁, h₁) ∧
      h.Adds h₁ L₁ ∧ h₁.projections = h.projections ∧
      (L₁ = [] ∨ L₁ = [intentLine call stamp before staged]) := by
    cases result with
    | error e => exact ⟨_, h, [], rfl, .refl hterm, rfl, .inl rfl⟩
    | ok _ =>
      obtain ⟨r₁, h₁, L₁, hrun, hadds, hproj, hL, -, -⟩ := @run_appendReceipt env h hterm call.faults
        call.actor stamp.receiptId "intent" (call.fields stamp before staged.actions ++
          [("projection_agents", .arr (((Assoc.keys staged.pending).insertionSort
              fun x y => x ≤ y).map .str)),
            ("task_ids", scopeValue call.taskIds)]) (hkeeps.whole _ _)
      exact ⟨r₁, h₁, L₁, hrun, hadds, hproj, hL⟩
  obtain ⟨r₁, h₁, L₁, hbody, hadds₁, hproj₁, hL₁⟩ := hintent
  have hlines₁ : ∀ line ∈ L₁, IsRepairLine call stamp before staged unresolved line := by
    intro line hline
    rcases hL₁ with rfl | rfl
    · exact (List.not_mem_nil hline).elim
    · exact .inl (List.mem_singleton.mp hline)
  have hnone₁ : ∀ phase, phase ≠ "intent" → NoneIs L₁ stamp.receiptId phase := by
    intro phase hphase
    rcases hL₁ with rfl | rfl
    · exact noneIs_nil
    · exact noneIs_singleton hphase.symm
  have hcommitted₁ := hnone₁ "committed" (by decide)
  have hrolled₁ := hnone₁ "rolled_back" (by decide)
  have hframe₁ : ∀ path ∉ Assoc.keys staged.originals,
      Assoc.get? h₁.projections path = Assoc.get? h.projections path := by
    intro path _
    rw [hproj₁]
  unfold journalRepair
  cases r₁ with
  | error e =>
    by_cases hkilled : e = .killed
    · subst hkilled
      refine ⟨_, h₁, L₁, run_bind_of_error (run_tryExcept_of_killed hbody), hadds₁, hlines₁,
        .inl hcommitted₁, fun e' he hne => ?_⟩
      cases he
      exact absurd rfl hne
    · -- nothing is journalled yet
      obtain ⟨e', h₂, M, hroll, hadds₂, hM, hsame⟩ := @run_rollBack env h h₁ call stamp before staged Unit
        hkeeps hadds₁.terminated hstaged.originals hframe₁ false e
      obtain rfl : M = [] := hM.elim id fun h => absurd h.1 Bool.false_ne_true
      refine ⟨_, h₂, L₁ ++ [], run_bind_of_error ((run_tryExcept_of_error hbody hkilled).trans hroll),
        hadds₁.trans hadds₂, ?_, .inl (hcommitted₁.append noneIs_nil),
        fun _ _ _ => ⟨hcommitted₁.append noneIs_nil, hsame⟩⟩
      rw [List.append_nil]
      exact hlines₁
  | ok _ =>
    obtain ⟨r₂, h₂, L₂, hcommit, hadds₂, hframe₂, hL₂, hnil⟩ := @run_commitRepair env h₁ call stamp before
      unresolved staged hkeeps hadds₁.terminated hstaged.pending
    have hlines₂ : ∀ line ∈ L₁ ++ L₂, IsRepairLine call stamp before staged unresolved line := by
      intro line hline
      rcases List.mem_append.mp hline with hline | hline
      · exact hlines₁ line hline
      · exact .inr (.inl (hL₂ line hline))
    have hrolled₂ : NoneIs (L₁ ++ L₂) stamp.receiptId "rolled_back" :=
      hrolled₁.append (noneIs_outcomes hL₂)
    rw [run_bind_of_ok (run_tryExcept_of_ok hbody)]
    cases r₂ with
    | ok receipt =>
      exact ⟨_, h₂, L₁ ++ L₂, run_tryExcept_of_ok hcommit, hadds₁.trans hadds₂, hlines₂, .inr hrolled₂,
        by simp⟩
    | error e =>
      by_cases hkilled : e = .killed
      · subst hkilled
        refine ⟨_, h₂, L₁ ++ L₂, run_tryExcept_of_killed hcommit, hadds₁.trans hadds₂, hlines₂,
          .inr hrolled₂, fun e' he hne => ?_⟩
        cases he
        exact absurd rfl hne
      · -- what raised is no receipt that is there, so that `rolled_back` is the only outcome
        obtain rfl : L₂ = [] := hnil e rfl hkilled
        have hframe : ∀ path ∉ Assoc.keys staged.originals,
            Assoc.get? h₂.projections path = Assoc.get? h.projections path :=
          fun path hpath => (hframe₂ path hpath).trans (hframe₁ path hpath)
        obtain ⟨e', h₃, M, hroll, hadds₃, hM, hsame⟩ := @run_rollBack env h h₂ call stamp before staged
          LifecycleRepairReceipt hkeeps hadds₂.terminated hstaged.originals hframe true e
        have hcommitted : NoneIs (L₁ ++ [] ++ M) stamp.receiptId "committed" := by
          refine (hcommitted₁.append noneIs_nil).append ?_
          rcases hM with rfl | ⟨-, fields, rfl⟩
          · exact noneIs_nil
          · exact noneIs_singleton (by decide)
        refine ⟨_, h₃, L₁ ++ [] ++ M, (run_tryExcept_of_error hcommit hkilled).trans hroll,
          (hadds₁.trans hadds₂).trans hadds₃, fun line hline => ?_, .inl hcommitted,
          fun _ _ _ => ⟨hcommitted, hsame⟩⟩
        rcases List.mem_append.mp hline with hline | hline
        · exact hlines₂ line hline
        · rcases hM with rfl | ⟨-, fields, rfl⟩
          · exact (List.not_mem_nil hline).elim
          · exact .inr (.inr ⟨fields, List.mem_singleton.mp hline⟩)

/-! ### Runs of calls -/

/-- The receipts are readable, no identifier is both committed and rolled back, and no identifier
that is still to be drawn is there. -/
structure LifecycleHome.Truthful (env : LifecycleEnv) (h : LifecycleHome) : Prop where
  readable : h.Readable
  once : ∀ receiptId, ¬ (h.Carries receiptId "committed" ∧ h.Carries receiptId "rolled_back")
  fresh : ∀ n, h.ticks ≤ n → ∀ phase, ¬ h.Carries (env.board.uuid n) phase

/-- A home without receipts. -/
theorem truthful_of_nil (hnil : h.receipts = []) : h.Truthful env := by
  have hnone : ∀ line, ¬ h.HasLine line := by
    rintro line ⟨p, hp, -⟩
    rw [hnil] at hp
    exact List.not_mem_nil hp
  refine ⟨⟨fun p hp => ?_, fun line hline => absurd hline (hnone line),
    fun x _ hx => absurd hx (hnone x)⟩, ?_, ?_⟩
  · rw [hnil] at hp
    exact (List.not_mem_nil hp).elim
  · rintro _ ⟨⟨line, hline, -⟩, -⟩
    exact hnone line hline
  · rintro _ _ _ ⟨line, hline, -⟩
    exact hnone line hline

/-- What goes on behind a part that returns returns when its own rest does. -/
theorem exists_ok_bind {α β : Type} {x : Except PyError α} {f : α → Except PyError β}
    (hx : ∃ a, x = .ok a) (hf : ∀ a, ∃ b, f a = .ok b) : ∃ b, (x >>= f) = .ok b := by
  obtain ⟨a, rfl⟩ := hx
  exact hf a

theorem receiptScope_intent (call : RepairCall) (stamp : RepairStamp) (before : LifecycleAudit)
    (staged : Staged) : (intentLine call stamp before staged).IsReceipt := by
  have hscope : ∀ payload : Dict, Dict.get payload "task_ids" = scopeValue call.taskIds →
      ∃ scope, receiptScope payload = .ok scope := by
    intro payload hget
    unfold receiptScope
    dsimp only
    rw [hget]
    cases call.taskIds with
    | none => exact ⟨none, rfl⟩
    | some ids =>
      refine exists_ok_bind (exists_mapM_ok fun x hx => ?_) fun m => ⟨some (scopeSet m), rfl⟩
      obtain ⟨taskId, -, rfl⟩ := List.mem_map.mp hx
      exact ⟨taskId, rfl⟩
  exact .receipt _ stamp.receiptId "intent" rfl rfl fun _ => hscope _ rfl

theorem isReceipt_receiptLine {receiptId phase : String} (fields : Dict) (hne : phase ≠ "intent") :
    (receiptLine receiptId phase fields).IsReceipt :=
  .receipt _ receiptId phase rfl rfl fun heq => absurd heq hne

/-- The lines of a repair, with the phases that its own identifier has and the one that others have.
-/
theorem isRepairLine_cases {line : LogLine}
    (hline : IsRepairLine call stamp before staged unresolved line) :
    line.IsReceipt ∧ ∃ receiptId phase, line.entry = some (receiptId, phase) ∧
      (receiptId = stamp.receiptId ∧
          (phase = "intent" → line = intentLine call stamp before staged) ∨
        phase = "recovered" ∧ ∃ p ∈ unresolved, p.1 = receiptId) := by
  rcases hline with rfl | (⟨fields, rfl⟩ | ⟨p, hp, fields, rfl⟩) | ⟨fields, rfl⟩
  · exact ⟨receiptScope_intent call stamp before staged, _, _, rfl, .inl ⟨rfl, fun _ => rfl⟩⟩
  · exact ⟨isReceipt_receiptLine fields (by decide), _, _, rfl,
      .inl ⟨rfl, fun heq => absurd heq (by decide)⟩⟩
  · exact ⟨isReceipt_receiptLine fields (by decide), _, _, rfl, .inr ⟨rfl, p, hp, rfl⟩⟩
  · exact ⟨isReceipt_receiptLine fields (by decide), _, _, rfl,
      .inl ⟨rfl, fun heq => absurd heq (by decide)⟩⟩

/-- What the writes of a repair preserve. -/
theorem truthful_of_repair (henv : env.board.Ticking) (ht : h.Truthful env) {L : List LogLine}
    (hid : stamp.receiptId = env.board.uuid h.ticks)
    (hunresolved : ∀ p ∈ unresolved, ∃ phase, h.Carries p.1 phase)
    (hlines : ∀ line, h'.HasLine line ↔ h.HasLine line ∨ line ∈ L)
    (hterm : ∀ p ∈ h'.receipts, p.2.terminated = true) (hticks : h'.ticks = h.ticks + 2)
    (hrepair : ∀ line ∈ L, IsRepairLine call stamp before staged unresolved line)
    (honce : NoneIs L stamp.receiptId "committed" ∨ NoneIs L stamp.receiptId "rolled_back") :
    h'.Truthful env := by
  -- no line that was there has the identifier of the repair
  have hold : ∀ line, h.HasLine line → ∀ phase, line.entry ≠ some (stamp.receiptId, phase) := by
    intro line hline phase hentry
    exact ht.fresh h.ticks le_rfl phase ⟨line, hline, hid ▸ hentry⟩
  have hown : ∀ line ∈ L, ∀ receiptId phase, line.entry = some (receiptId, phase) →
      phase ≠ "recovered" → receiptId = stamp.receiptId ∧
        (phase = "intent" → line = intentLine call stamp before staged) := by
    intro line hline receiptId phase hentry hphase
    obtain ⟨-, id, ph, hentry', hcase⟩ := isRepairLine_cases (hrepair line hline)
    rw [hentry] at hentry'
    obtain ⟨rfl, rfl⟩ := Prod.mk.inj (Option.some.inj hentry')
    rcases hcase with ⟨h1, h2⟩ | ⟨h1, -⟩
    · exact ⟨h1, h2⟩
    · exact absurd h1 hphase
  refine ⟨⟨hterm, fun line hline => ?_, fun x y hx hy receiptId hxe hye => ?_⟩, ?_, ?_⟩
  · rcases (hlines line).mp hline with hline | hline
    · exact ht.readable.receipts line hline
    · exact (isRepairLine_cases (hrepair line hline)).1
  · rcases (hlines x).mp hx with hx | hx <;> rcases (hlines y).mp hy with hy | hy
    · exact ht.readable.scopes x y hx hy receiptId hxe hye
    · obtain ⟨rfl, -⟩ := hown y hy _ _ hye (by decide)
      exact absurd hxe (hold x hx _)
    · obtain ⟨rfl, -⟩ := hown x hx _ _ hxe (by decide)
      exact absurd hye (hold y hy _)
    · rw [(hown x hx _ _ hxe (by decide)).2 rfl, (hown y hy _ _ hye (by decide)).2 rfl]
  · rintro receiptId ⟨⟨x, hx, hxe⟩, ⟨y, hy, hye⟩⟩
    by_cases hown' : receiptId = stamp.receiptId
    · subst hown'
      have hxL : x ∈ L := ((hlines x).mp hx).resolve_left fun hx => hold x hx _ hxe
      have hyL : y ∈ L := ((hlines y).mp hy).resolve_left fun hy => hold y hy _ hye
      rcases honce with hnone | hnone
      · exact hnone x hxL hxe
      · exact hnone y hyL hye
    · have hxh : h.HasLine x := ((hlines x).mp hx).resolve_right fun hx =>
        hown' (hown x hx _ _ hxe (by decide)).1
      have hyh : h.HasLine y := ((hlines y).mp hy).resolve_right fun hy =>
        hown' (hown y hy _ _ hye (by decide)).1
      exact ht.once receiptId ⟨⟨x, hxh, hxe⟩, ⟨y, hyh, hye⟩⟩
  · rintro n hn phase ⟨line, hline, hentry⟩
    have hle : h.ticks ≤ n := by omega
    rcases (hlines line).mp hline with hline | hline
    · exact ht.fresh n hle phase ⟨line, hline, hentry⟩
    · obtain ⟨-, id, ph, hentry', hcase⟩ := isRepairLine_cases (hrepair line hline)
      rw [hentry] at hentry'
      obtain ⟨rfl, rfl⟩ := Prod.mk.inj (Option.some.inj hentry')
      rcases hcase with ⟨h1, -⟩ | ⟨-, p, hp, h1⟩
      · have heq : n = h.ticks := henv.uuid (h1.trans hid)
        omega
      · obtain ⟨phase', hcarries⟩ := hunresolved p hp
        rw [h1] at hcarries
        exact ht.fresh n hle phase' hcarries

/-- **One call**: it keeps the receipts truthful, and where it raises the files are as before and
its identifier is not committed. -/
theorem run_repairLifecycle (henv : env.board.Ticking) (ht : h.Truthful env)
    (hkeeps : call.KeepsReceipts) :
    ∃ r h', (repairLifecycle env call).run h = (r, h') ∧ h'.Truthful env ∧
      ∀ e, r = .error e → e ≠ .killed →
        ¬ h'.Carries (env.board.uuid h.ticks) "committed" ∧
        (call.Restores → h.AreText → ∀ path,
          Assoc.get? h'.projections path = Assoc.get? h.projections path) := by
  -- A call that raises before its intent has written nothing, and its identifier is a new one.
  have hearly : ∀ e : PyError, ∃ r h', ((.error e, h) : Except PyError LifecycleRepairReceipt ×
      LifecycleHome) = (r, h') ∧ h'.Truthful env ∧ ∀ e, r = .error e → e ≠ .killed →
        ¬ h'.Carries (env.board.uuid h.ticks) "committed" ∧
        (call.Restores → h.AreText → ∀ path,
          Assoc.get? h'.projections path = Assoc.get? h.projections path) := fun e =>
    ⟨_, h, rfl, ht, fun _ _ _ => ⟨ht.fresh h.ticks le_rfl _, fun _ _ _ => rfl⟩⟩
  obtain ⟨unresolved, hunresolved, -, hcarried⟩ := unresolvedReceiptIds_spec ht.readable
  unfold repairLifecycle
  rw [run_get_bind, run_lift_bind, hunresolved]
  dsimp only
  rw [run_lift_bind]
  cases haudit : auditLifecycle env call.taskIds h with
  | error e => exact hearly e
  | ok before =>
    dsimp only
    rw [run_lift_bind]
    cases hactive : assertNoActiveConflicts env (env.board.now h.ticks) call.staleAfterSeconds h
      before with
    | error e => exact hearly e
    | ok _ =>
      dsimp only
      rw [run_lift_bind]
      cases hcards : h.cards env with
      | error e => exact hearly e
      | ok all =>
        dsimp only
        rw [run_lift_bind]
        cases hdoing : doingOwners (cardsById all) with
        | error e => exact hearly e
        | ok _ =>
          dsimp only
          -- Every check has passed: the call takes its stamp and stages the actions in memory.
          set stamp : RepairStamp := ⟨env.board.uuid h.ticks, env.board.now (h.ticks + 1)⟩ with hstamp
          have hstaged : Keeps (Staged.Keeps h)
              (repairAgents env stamp.repairedAt call.staleAfterSeconds call.taskIds (cardsById all) h
                ((h.loadAgents env).map Prod.snd) >>= fun _ =>
              repairOwners env stamp.repairedAt call.taskIds (cardsById all) h
                ((scopedCards call.taskIds (cardsById all)).map Prod.snd)) :=
            (keeps_repairAgents _).bind fun _ => keeps_repairOwners _
          have hkept := hstaged { agents := h.loadAgents env }
            ⟨fun p hp => (List.not_mem_nil hp).elim, fun p hp => (List.not_mem_nil hp).elim⟩
          cases hrun : (repairAgents env stamp.repairedAt call.staleAfterSeconds call.taskIds
              (cardsById all) h ((h.loadAgents env).map Prod.snd) >>= fun _ =>
            repairOwners env stamp.repairedAt call.taskIds (cardsById all) h
              ((scopedCards call.taskIds (cardsById all)).map Prod.snd)).run
                { agents := h.loadAgents env } with
          | mk result staged =>
            -- What is left is the journalled part, from the intent to the outcome.
            rw [hrun] at hkept
            obtain ⟨r, h', L, hjournal, hdone⟩ := @run_journalRepair env { h with ticks := h.ticks + 2 }
              call stamp before unresolved staged hkeeps ht.readable.terminated
              ⟨hkept.originals, hkept.pending⟩ result
            refine ⟨r, h', hjournal, truthful_of_repair henv ht rfl hcarried hdone.adds.lines
              hdone.adds.terminated hdone.adds.ticks hdone.lines hdone.once, fun e he hne => ?_⟩
            obtain ⟨hnone, hsame⟩ := hdone.raises e he hne
            refine ⟨?_, hsame⟩
            rintro ⟨line, hline, hentry⟩
            rcases (hdone.adds.lines line).mp hline with hline | hline
            · exact ht.fresh h.ticks le_rfl _ ⟨line, hline, hentry⟩
            · exact hnone line hline hentry

/-- The receipts stay truthful along a run. -/
theorem truthful_runRepairs (henv : env.board.Ticking) : ∀ {calls : List RepairCall}
    {h : LifecycleHome}, h.Truthful env → (∀ call ∈ calls, call.KeepsReceipts) →
      (runRepairs env h calls).Truthful env
  | [], _, ht, _ => ht
  | call :: calls, h, ht, hkeeps => by
    obtain ⟨r, h', hrun, ht', -⟩ := run_repairLifecycle henv ht (hkeeps call List.mem_cons_self)
    unfold runRepairs
    rw [List.foldl_cons, hrun]
    exact truthful_runRepairs henv ht' fun c hc => hkeeps c (List.mem_cons_of_mem _ hc)

/-- **The receipts tell the truth** in every state that a run reaches: no identifier is committed
and rolled back, every intent without an outcome is reported, and a further call that raises leaves
the files as they were and commits nothing. -/
theorem receipts_truthful (henv : env.board.Ticking) (ht : h.Truthful env) (calls : List RepairCall)
    (hkeeps : ∀ call ∈ calls, call.KeepsReceipts) :
    (∀ receiptId, ¬ ((runRepairs env h calls).Carries receiptId "committed" ∧
      (runRepairs env h calls).Carries receiptId "rolled_back")) ∧
    (∃ l, unresolvedReceiptIds (runRepairs env h calls) = .ok l ∧
      ∀ receiptId, (runRepairs env h calls).Carries receiptId "intent" →
        (∀ phase ∈ terminalPhases, ¬ (runRepairs env h calls).Carries receiptId phase) →
          ∃ scope, (receiptId, scope) ∈ l) ∧
    ∀ call : RepairCall, call.KeepsReceipts → ∀ e h',
      (repairLifecycle env call).run (runRepairs env h calls) = (.error e, h') → e ≠ .killed →
        ¬ h'.Carries (env.board.uuid (runRepairs env h calls).ticks) "committed" ∧
        (call.Restores → (runRepairs env h calls).AreText → ∀ path,
          Assoc.get? h'.projections path =
            Assoc.get? (runRepairs env h calls).projections path) := by
  have htruth := truthful_runRepairs henv ht hkeeps
  refine ⟨htruth.once, ?_, fun call hcall e h' hrun hne => ?_⟩
  · obtain ⟨l, hl, hreported, -⟩ := unresolvedReceiptIds_spec htruth.readable
    exact ⟨l, hl, hreported⟩
  · obtain ⟨r, h'', hrun', -, hraises⟩ := run_repairLifecycle henv htruth hcall
    rw [hrun] at hrun'
    cases hrun'
    exact hraises e rfl hne

/-! ### Two runs -/

/-- An environment with a home that has no agent files. -/
def bareEnv : LifecycleEnv where
  board := unaryEnv
  parseAgent := fun _ => none
  dumpAgent := fun _ => []
  others := []

/-- A repair whose appends of one phase fail and leave nothing. -/
def failingCall (phase : String) (e : PyError) : RepairCall where
  actor := "operator"
  faults
    | .receipt _ phase' => if phase' = phase then .fails false e else .ok
    | _ => .ok

theorem keepsReceipts_failingCall {phase : String} {e : PyError}
    (h : phase = "recovered" → e = .killed) : (failingCall phase e).KeepsReceipts := by
  refine ⟨fun receiptId phase' => ?_, fun receiptId e' hfault => ?_,
    fun receiptId took e' hfault => ?_⟩
  · unfold failingCall
    dsimp only
    split <;> rfl
  · unfold failingCall at hfault
    dsimp only at hfault
    split at hfault <;> cases hfault
  · unfold failingCall at hfault
    dsimp only at hfault
    split at hfault
    · rename_i hphase
      cases hfault
      exact h hphase.symm
    · cases hfault

/-- A repair that dies before its `committed`, and one whose `committed` fails: the second raises,
and it carries no `committed`. -/
theorem receipts_truthful_failing : ∃ e h', (repairLifecycle bareEnv
    (failingCall "committed" (.os "disk full"))).run
      (runRepairs bareEnv {} [failingCall "committed" .killed]) = (.error e, h') ∧
    ¬ h'.Carries "uuu" "committed" := by
  have hrun : ∃ e h', (repairLifecycle bareEnv (failingCall "committed" (.os "disk full"))).run
      (runRepairs bareEnv {} [failingCall "committed" .killed]) = (.error e, h') ∧ e ≠ .killed :=
    ⟨.os "disk full", _, rfl, by decide⟩
  obtain ⟨e, h', hrun, hne⟩ := hrun
  have hempty : LifecycleHome.Truthful bareEnv {} := truthful_of_nil rfl
  have htruth := receipts_truthful unaryEnv_ticking hempty [failingCall "committed" .killed] (by
      intro call hcall
      rw [List.mem_singleton.mp hcall]
      exact keepsReceipts_failingCall fun _ => rfl)
  exact ⟨e, h', hrun, (htruth.2.2 _ (keepsReceipts_failingCall (by decide)) e h' hrun hne).1⟩

/-- The same, but it is the append of `recovered` that fails: the repair raises and is rolled back
behind its `committed`. -/
theorem recovered_fails : ∃ h', (repairLifecycle bareEnv
    (failingCall "recovered" (.os "disk full"))).run
      (runRepairs bareEnv {} [failingCall "committed" .killed]) = (.error (.os "disk full"), h') ∧
    h'.Carries "uuu" "committed" ∧ h'.Carries "uuu" "rolled_back" := by
  obtain ⟨h', hrun, hentries⟩ : ∃ h', (repairLifecycle bareEnv
      (failingCall "recovered" (.os "disk full"))).run
        (runRepairs bareEnv {} [failingCall "committed" .killed]) = (.error (.os "disk full"), h') ∧
      h'.receiptLines.filterMap LogLine.entry = [("u", "intent"), ("uuu", "intent"),
        ("uuu", "committed"), ("uuu", "rolled_back")] := ⟨_, rfl, rfl⟩
  refine ⟨h', hrun, LifecycleHome.carries_iff.mpr ?_, LifecycleHome.carries_iff.mpr ?_⟩
  · rw [hentries]
    decide
  · rw [hentries]
    decide

end SkCoord
