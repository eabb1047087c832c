import SkCoord.Cmdb.Equiv.Landed
import SkCoord.Cmdb.Retirement

/-!
# Retirement after consecutive misses

A pass reads the count of an item from an attribute and writes the next one behind the log of its
agent.  `run_pass_clean`: where that log ends in a finished line, the pass skips the item or counts
it, and nothing is lost.  `History` are the passes that an item goes through, with other writers in
between; `History.countIs` says that the count is the number of complete passes in a row, up to the
last one, that did not discover the item, and `history_retiresByRule` that an item is set retired
only where this and the passes before it missed it.  Behind an unfinished line the event is lost
together with the line (`cutLog_breaks_rule`).
-/

namespace SkCoord.Cmdb

open Python Python.Effect

variable {env : Env} {F : FloatText} {key ciId : String} {ci ci' : ConfigItem} {e : Dict}

/-! ### The events of a pass -/

section

variable {seq : ℕ} {agent ts note : String} {n : Int}

/-- The event that `set_attribute` writes of a count, as it is read. -/
def countEvent (env : Env) (seq : ℕ) (agent ts key : String) (n : Int) : Dict :=
  rereadEvent env.floats
    (newEvent env seq agent "attribute" ts [("key", .str key), ("value", .int n)])

/-- The event that `set_status` writes of a retirement, as it is read. -/
def retiredEvent (env : Env) (seq : ℕ) (agent ts note : String) : Dict :=
  rereadEvent env.floats (newEvent env seq agent "status" ts
    [("status", .str CIStatus.retired.value), ("note", .str note)])

theorem get?_countEvent (k : String) : Assoc.get? (countEvent env seq agent ts key n) k =
    ((Assoc.get? [("key", Json.str key), ("value", .int n)] k).or
      (Assoc.get? (eventFields env seq agent "attribute" ts) k)).map (Json.reread env.floats) :=
  get?_newEvent (by show ["key", "value"].Nodup; decide) k

theorem get?_retiredEvent (k : String) : Assoc.get? (retiredEvent env seq agent ts note) k =
    ((Assoc.get? [("status", Json.str CIStatus.retired.value), ("note", .str note)] k).or
      (Assoc.get? (eventFields env seq agent "status" ts) k)).map (Json.reread env.floats) :=
  get?_newEvent (by show ["status", "note"].Nodup; decide) k

theorem action_countEvent :
    ConfigItem.Action.of (countEvent env seq agent ts key n) = .setAttribute := by
  unfold ConfigItem.Action.of
  rw [Dict.get, get?_countEvent]
  rfl

theorem action_retiredEvent :
    ConfigItem.Action.of (retiredEvent env seq agent ts note) = .status := by
  unfold ConfigItem.Action.of
  rw [Dict.get, get?_retiredEvent]
  rfl

theorem setsAttribute_countEvent {key' : String} :
    setsAttribute key' (countEvent env seq agent ts key n) = (key == key') := by
  unfold setsAttribute
  rw [action_countEvent, Dict.get, get?_countEvent]
  show (Json.str key).pyEq (.str key') = (key == key')
  rw [Bool.eq_iff_iff, Json.pyEq_str_iff, beq_iff_eq, Json.str.injEq, eq_comm]

theorem setsStatus_countEvent : setsStatus (countEvent env seq agent ts key n) = false := by
  unfold setsStatus
  rw [action_countEvent]
  rfl

theorem setsAttribute_retiredEvent {key' : String} :
    setsAttribute key' (retiredEvent env seq agent ts note) = false := by
  unfold setsAttribute
  rw [action_retiredEvent]
  rfl

end

/-! ### One item -/

variable {p : RetirementPass}

/-- The item carries the tag of discovered items. -/
def CmdbDir.IsTagged (env : Env) (dir : CmdbDir) (ciId : String) : Prop :=
  ∃ ci, dir.getCi env ciId = .ok (some ci) ∧ discoveredTag ∈ ci.tags

/-- What the writes of a pass leave of one item: its count, and its retirement where it retires. -/
structure Advances (env : Env) (p : RetirementPass) (ciId : String) (ci : ConfigItem)
    (previous : Int) (s s' : Manager) : Prop where
  count : countOf env (getAttributeD ci.attributes p.key (.int 0)) = .ok previous
  writes : (p.misses ciId previous = previous ∧ p.retires ci (p.misses ciId previous) = false ∧
      s' = s) ∨
    ∃ seq s₁, Lands env ciId p.agent
      (countEvent env seq p.agent (env.now s.ticks) p.key (p.misses ciId previous)) s s₁ ∧
      (p.retires ci (p.misses ciId previous) = false ∧ s' = s₁ ∨
        p.retires ci (p.misses ciId previous) = true ∧
          ∃ seq', Lands env ciId p.agent
            (retiredEvent env seq' p.agent (env.now s₁.ticks) p.note) s₁ s')

/-- A count that stays the same is zero. -/
theorem not_lt_of_misses_eq {previous : Int} (hthreshold : 1 ≤ p.threshold)
    (h : p.misses ciId previous = previous) : ¬p.threshold ≤ p.misses ciId previous := by
  unfold RetirementPass.misses at h ⊢
  split at h
  · rename_i hseen
    rw [if_pos hseen]
    omega
  · omega

/-- Below the threshold no item is retired. -/
theorem retires_of_not_lt {misses : Int} (h : ¬p.threshold ≤ misses) :
    p.retires ci misses = false := by
  unfold RetirementPass.retires
  rw [decide_eq_false h, Bool.false_and]

theorem run_onlyIf {b : Bool} {x : Effect Manager Unit} {s : Manager} :
    (onlyIf b x).run s = if b then x.run s else (.ok (), s) := by
  unfold onlyIf
  split <;> rfl

/-- **One item of a pass**, where its log is finished if the count changes. -/
theorem run_advanceItem {s s' : Manager} {a : RetirementAction} (hthreshold : 1 ≤ p.threshold)
    (hclosed : ∀ n, countOf env (getAttributeD ci.attributes p.key (.int 0)) = .ok n →
      p.misses ciId n ≠ n → s.dir.LogClosed env ciId p.agent)
    (h : (advanceItem env p true ciId ci).run s = (.ok a, s')) :
    ∃ previous, Advances env p ciId ci previous s s' ∧ a.ciId = ciId ∧
      (a.action = "retire" ↔ p.retires ci (p.misses ciId previous) = true) := by
  unfold advanceItem at h
  obtain ⟨previous, hcount, h⟩ := run_lift_bind_eq_ok.mp h
  rw [run_get_bind] at h
  obtain ⟨dependents, -, h⟩ := run_lift_bind_eq_ok.mp h
  obtain ⟨⟨⟩, s₁, hattribute, h⟩ := run_bind_eq_ok.mp h
  obtain ⟨⟨⟩, s₂, hstatus, h⟩ := run_bind_eq_ok.mp h
  cases h
  refine ⟨previous, ⟨hcount, ?_⟩, rfl, ?_⟩
  · rw [run_onlyIf, Bool.true_and] at hattribute hstatus
    by_cases hsame : p.misses ciId previous = previous
    · -- the count stays only where it is zero
      have hretires : p.retires ci (p.misses ciId previous) = false :=
        retires_of_not_lt (not_lt_of_misses_eq hthreshold hsame)
      rw [if_neg (by simpa using hsame)] at hattribute
      cases hattribute
      rw [hretires, if_neg Bool.false_ne_true] at hstatus
      cases hstatus
      exact .inl ⟨hsame, hretires, rfl⟩
    · rw [if_pos (by simpa using hsame)] at hattribute
      obtain ⟨-, -, hattribute⟩ := run_lift_bind_eq_ok.mp hattribute
      obtain ⟨seq, hlands⟩ := run_append_lands (hclosed previous hcount hsame) hattribute
      refine .inr ⟨seq, s₁, hlands, ?_⟩
      cases hretires : p.retires ci (p.misses ciId previous) with
      | false =>
        rw [hretires, if_neg Bool.false_ne_true] at hstatus
        cases hstatus
        exact .inl ⟨rfl, rfl⟩
      | true =>
        rw [hretires, if_pos rfl] at hstatus
        exact .inr ⟨rfl, run_append_lands hlands.closed hstatus⟩
  · dsimp only
    cases hretires : p.retires ci (p.misses ciId previous) with
    | false =>
      rw [if_neg Bool.false_ne_true]
      refine ⟨fun h => ?_, fun h => nomatch h⟩
      unfold RetirementPass.action at h
      split at h
      · split at h <;> exact absurd h (by decide)
      · exact absurd h (by decide)
    | true =>
      rw [if_pos rfl]
      exact ⟨fun _ => rfl, fun _ => rfl⟩

/-! ### The loop -/

/-- Later, with the same directory of one item. -/
structure Later (ciId : String) (s s' : Manager) : Prop where
  dir : s'.dir.ciDir ciId = s.dir.ciDir ciId
  ticks : s.ticks ≤ s'.ticks

namespace Later

variable {s s' s'' : Manager}

theorem refl (ciId : String) (s : Manager) : Later ciId s s := ⟨rfl, le_rfl⟩

theorem trans (h : Later ciId s s') (h' : Later ciId s' s'') : Later ciId s s'' :=
  ⟨h'.dir.trans h.dir, h.ticks.trans h'.ticks⟩

/-- An item is what its directory holds. -/
theorem getCi (h : Later ciId s s') : s'.dir.getCi env ciId = s.dir.getCi env ciId := by
  unfold CmdbDir.getCi CmdbDir.readEvents
  rw [h.dir]

theorem logClosed {agent : String} (h : Later ciId s s') :
    s'.dir.LogClosed env ciId agent ↔ s.dir.LogClosed env ciId agent := by
  unfold CmdbDir.LogClosed
  rw [log_eq, log_eq, h.dir]

end Later

/-- Writes to another item. -/
theorem keeps_append {s : Manager} {other agent action : String} {payload : Dict}
    (hne : ciId ≠ other) : Keeps (Later ciId s) (append env other agent action payload) := by
  intro t ht
  refine run_lift_bind_rule (fun r : Except PyError Unit × Manager => Later ciId s r.2)
    (fun _ => ht) fun text _ => ?_
  refine ⟨?_, ht.ticks.trans (Nat.le_succ _)⟩
  show CmdbDir.ciDir (CmdbDir.setLog t.dir other _ _) ciId = _
  rw [CmdbDir.setLog, ciDir_set, if_neg hne]
  exact ht.dir

theorem keeps_onlyIf {I : Manager → Prop} {b : Bool} {x : Effect Manager Unit} (hx : Keeps I x) :
    Keeps I (onlyIf b x) := by
  unfold onlyIf
  split
  · exact hx
  · exact keeps_pure ()

theorem keeps_advanceItem {s : Manager} {other : String} (hne : ciId ≠ other) :
    Keeps (Later ciId s) (advanceItem env p true other ci) := by
  refine (keeps_lift _).bind fun previous => keeps_get.bind fun _ => (keeps_lift _).bind fun _ => ?_
  refine (keeps_onlyIf ((keeps_lift _).bind fun _ => keeps_append hne)).bind fun _ => ?_
  exact (keeps_onlyIf (keeps_append hne)).bind fun _ => keeps_pure _

theorem ciId_of_advanceItem {apply : Bool} {s s' : Manager} {a : RetirementAction}
    (h : (advanceItem env p apply ciId ci).run s = (.ok a, s')) : a.ciId = ciId := by
  unfold advanceItem at h
  obtain ⟨previous, -, h⟩ := run_lift_bind_eq_ok.mp h
  rw [run_get_bind] at h
  obtain ⟨dependents, -, h⟩ := run_lift_bind_eq_ok.mp h
  obtain ⟨⟨⟩, s₁, -, h⟩ := run_bind_eq_ok.mp h
  obtain ⟨⟨⟩, s₂, -, h⟩ := run_bind_eq_ok.mp h
  cases h
  rfl

/-- The loop over other items. -/
theorem run_advanceItems_of_not_mem : ∀ {ids : List String}, ciId ∉ ids →
    ∀ {s s' : Manager} {actions : List RetirementAction},
      (advanceItems env p true ids).run s = (.ok actions, s') →
      Later ciId s s' ∧ ∀ a ∈ actions, a.ciId ≠ ciId
  | [], _, s, s', actions, h => by
    cases h
    exact ⟨.refl _ _, fun a ha => nomatch ha⟩
  | other :: ids, hmem, s, s', actions, h => by
    obtain ⟨hne, hmem⟩ := not_or.mp (mt List.mem_cons.mpr hmem)
    rw [advanceItems, run_get_bind] at h
    obtain ⟨found, -, h⟩ := run_lift_bind_eq_ok.mp h
    split at h
    · exact run_advanceItems_of_not_mem hmem h
    · rename_i ci _
      obtain ⟨a, s₁, ha, h⟩ := run_bind_eq_ok.mp h
      obtain ⟨rest, s₂, hrest, h⟩ := run_bind_eq_ok.mp h
      cases h
      have hlater : Later ciId s s₁ := (keeps_advanceItem hne).of_run (.refl ciId s) ha
      obtain ⟨hlater', hactions⟩ := run_advanceItems_of_not_mem hmem hrest
      refine ⟨hlater.trans hlater', List.forall_mem_cons.mpr ⟨?_, hactions⟩⟩
      rw [ciId_of_advanceItem ha]
      exact Ne.symm hne

/-- What a loop does to one item. -/
inductive Passes (env : Env) (p : RetirementPass) (ciId : String) (s s' : Manager)
    (actions : List RetirementAction) : Prop where
  | skips (hlater : Later ciId s s') (hactions : ∀ a ∈ actions, a.ciId ≠ ciId)
    (htag : ¬s.dir.IsTagged env ciId)
  | advances (s₁ s₂ : Manager) (ci : ConfigItem) (a : RetirementAction) (hbefore : Later ciId s s₁)
    (hci : s.dir.getCi env ciId = .ok (some ci)) (htag : discoveredTag ∈ ci.tags)
    (hrun : (advanceItem env p true ciId ci).run s₁ = (.ok a, s₂)) (hbehind : Later ciId s₂ s')
    (hactions : ∀ x ∈ actions, x.ciId = ciId → x = a)

/-- **The loop** passes over one item once. -/
theorem run_advanceItems : ∀ {ids : List String}, ids.Nodup → ciId ∈ ids →
    ∀ {s s' : Manager} {actions : List RetirementAction},
      (advanceItems env p true ids).run s = (.ok actions, s') → Passes env p ciId s s' actions
  | other :: ids, hnodup, hmem, s, s', actions, h => by
    obtain ⟨hother, hnodup⟩ := List.nodup_cons.mp hnodup
    rw [advanceItems, run_get_bind] at h
    obtain ⟨found, hfound, h⟩ := run_lift_bind_eq_ok.mp h
    by_cases heq : ciId = other
    · -- the turn of the item: the rest of the loop leaves it
      subst heq
      split at h
      · rename_i hnone
        obtain ⟨hlater, hactions⟩ := run_advanceItems_of_not_mem hother h
        refine .skips hlater hactions ?_
        rintro ⟨ci, hci, htag⟩
        cases hfound.symm.trans hci
        rw [Option.filter_some, if_pos (List.contains_iff_mem.mpr htag)] at hnone
        cases hnone
      · rename_i ci hsome
        obtain ⟨rfl, htag⟩ := Option.filter_eq_some_iff.mp hsome
        obtain ⟨a, s₁, ha, h⟩ := run_bind_eq_ok.mp h
        obtain ⟨rest, s₂, hrest, h⟩ := run_bind_eq_ok.mp h
        cases h
        obtain ⟨hlater, hactions⟩ := run_advanceItems_of_not_mem hother hrest
        refine .advances s s₁ ci a (.refl _ _) hfound (List.contains_iff_mem.mp htag) ha hlater
          fun x hx hxid => ?_
        rcases List.mem_cons.mp hx with rfl | hx
        · rfl
        · exact absurd hxid (hactions x hx)
    · -- the turn of another item, which leaves this one to the rest of the loop
      have hrest := (List.mem_cons.mp hmem).resolve_left heq
      split at h
      · exact run_advanceItems hnodup hrest h
      · rename_i ci _
        obtain ⟨a, s₁, ha, h⟩ := run_bind_eq_ok.mp h
        obtain ⟨rest, s₂, hloop, h⟩ := run_bind_eq_ok.mp h
        cases h
        have hlater : Later ciId s s₁ := (keeps_advanceItem heq).of_run (.refl ciId s) ha
        have hskip : a.ciId ≠ ciId := by
          rw [ciId_of_advanceItem ha]
          exact Ne.symm heq
        cases run_advanceItems hnodup hrest hloop with
        | skips hlater' hactions htag =>
          refine .skips (hlater.trans hlater') (List.forall_mem_cons.mpr ⟨hskip, hactions⟩) ?_
          unfold CmdbDir.IsTagged at htag ⊢
          rwa [hlater.getCi] at htag
        | advances t₁ t₂ ci' a' hbefore hci htag hrun hbehind hactions =>
          refine .advances t₁ t₂ ci' a' (hlater.trans hbefore) (hlater.getCi ▸ hci) htag hrun
            hbehind fun x hx hxid => ?_
          rcases List.mem_cons.mp hx with rfl | hx
          · exact absurd hxid hskip
          · exact hactions x hx hxid

/-! ### The pass -/

/-- The pass looks at the item. -/
def RetirementPass.Owns (p : RetirementPass) (ciId : String) : Prop :=
  p.complete = true ∧ ciId ∈ p.ownedIds

/-- A pass that returned. -/
theorem run_pass (ciId : String) {s s' : Manager} {actions : List RetirementAction}
    (h : (applyRetirementLifecycle env p true).run s = (.ok actions, s')) :
    1 ≤ p.threshold ∧ (p.complete = false → s' = s) ∧
      (¬p.Owns ciId ∧ Later ciId s s' ∧ (∀ a ∈ actions, a.ciId ≠ ciId) ∨
        p.Owns ciId ∧ Passes env p ciId s s' actions) := by
  unfold applyRetirementLifecycle at h
  split at h
  · cases h
  · rename_i hthreshold
    split at h
    · cases h
    · split at h
      · rename_i hcomplete
        refine ⟨by omega, fun hno => absurd (hcomplete.symm.trans hno) (by decide), ?_⟩
        have hperm := List.perm_insertionSort (fun x y : String => x ≤ y) p.ownedIds.dedup
        by_cases hmem : ciId ∈ p.ownedIds
        · exact .inr ⟨⟨hcomplete, hmem⟩,
            run_advanceItems (hperm.nodup_iff.mpr (List.nodup_dedup _))
              (hperm.mem_iff.mpr (List.mem_dedup.mpr hmem)) h⟩
        · obtain ⟨hlater, hactions⟩ := run_advanceItems_of_not_mem
            (fun hin => hmem (List.mem_dedup.mp (hperm.mem_iff.mp hin))) h
          exact .inl ⟨fun howns => hmem howns.2, hlater, hactions⟩
      · rename_i hcomplete
        cases h
        exact ⟨by omega, fun _ => rfl,
          .inl ⟨fun howns => hcomplete howns.1, .refl _ _, fun a ha => nomatch ha⟩⟩

/-- The pass changes the count of the item. -/
def RetirementPass.Writes (env : Env) (p : RetirementPass) (dir : CmdbDir) (ciId : String) : Prop :=
  p.Owns ciId ∧ ∃ ci n, dir.getCi env ciId = .ok (some ci) ∧ discoveredTag ∈ ci.tags ∧
    countOf env (getAttributeD ci.attributes p.key (.int 0)) = .ok n ∧ p.misses ciId n ≠ n

/-- Where the pass changes the count of the item, the log that it writes ends in a finished line. -/
def RetirementPass.Clean (env : Env) (p : RetirementPass) (dir : CmdbDir) (ciId : String) : Prop :=
  p.Writes env dir ciId → dir.LogClosed env ciId p.agent

/-- What a clean pass does to an item that it counts: the count moves on by one turn, and the report
says `retire` only at the threshold. -/
structure Counted (env : Env) (p : RetirementPass) (ciId : String) (s s' : Manager)
    (actions : List RetirementAction) (ci : ConfigItem) (previous : Int) : Prop where
  threshold : 1 ≤ p.threshold
  owns : p.Owns ciId
  item : s.dir.getCi env ciId = .ok (some ci)
  advances : ∃ s₁ s₂, Later ciId s s₁ ∧ Advances env p ciId ci previous s₁ s₂ ∧ Later ciId s₂ s'
  retires : (∃ a ∈ actions, a.ciId = ciId ∧ a.action = "retire") →
    p.retires ci (p.misses ciId previous) = true

/-- **A clean pass** skips an item or counts it. -/
theorem run_pass_clean {s s' : Manager} {actions : List RetirementAction}
    (hclean : p.Clean env s.dir ciId)
    (h : (applyRetirementLifecycle env p true).run s = (.ok actions, s')) :
    ((¬p.Owns ciId ∨ ¬s.dir.IsTagged env ciId) ∧ Later ciId s s' ∧
        ∀ a ∈ actions, a.ciId ≠ ciId) ∨
      ∃ ci previous, Counted env p ciId s s' actions ci previous := by
  obtain ⟨hthreshold, -, ⟨howns, hlater, hactions⟩ | ⟨howns, hpasses⟩⟩ := run_pass ciId h
  · exact .inl ⟨.inl howns, hlater, hactions⟩
  · cases hpasses with
    | skips hlater hactions htag => exact .inl ⟨.inr htag, hlater, hactions⟩
    | advances s₁ s₂ ci a hbefore hci htag hrun hbehind hactions =>
      obtain ⟨previous, hadvances, -, hretire⟩ := run_advanceItem hthreshold
        (fun n hn hne => hbefore.logClosed.mpr (hclean ⟨howns, ci, n, hci, htag, hn, hne⟩)) hrun
      refine .inr ⟨ci, previous, hthreshold, howns, hci, ⟨s₁, s₂, hbefore, hadvances, hbehind⟩, ?_⟩
      rintro ⟨x, hx, hxid, hxact⟩
      rw [hactions x hx hxid] at hxact
      exact hretire.mp hxact

/-! ### The count -/

/-- Later, with the same events that set an attribute. -/
structure Untouched (env : Env) (ciId key : String) (s s' : Manager) : Prop where
  core : (s'.dir.ciDir ciId).core = (s.dir.ciDir ciId).core
  events : ((s'.dir.ciDir ciId).events env.floats).filter (setsAttribute key) =
    ((s.dir.ciDir ciId).events env.floats).filter (setsAttribute key)
  ticks : s.ticks ≤ s'.ticks

namespace Untouched

variable {s s' s'' : Manager}

theorem of_later (h : Later ciId s s') : Untouched env ciId key s s' :=
  ⟨by rw [h.dir], by rw [h.dir], h.ticks⟩

/-- An event that sets something else. -/
theorem of_lands {agent : String} (h : Lands env ciId agent e s s')
    (hsets : setsAttribute key e = false) : Untouched env ciId key s s' := by
  obtain ⟨l, m, hold, hnew⟩ := h.events
  refine ⟨h.core, ?_, h.ticks.ge.trans' (Nat.le_succ _)⟩
  rw [hold, hnew, List.filter_append, List.filter_append,
    List.filter_cons_of_neg (Bool.eq_false_iff.mp hsets)]

theorem trans (h : Untouched env ciId key s s') (h' : Untouched env ciId key s' s'') :
    Untouched env ciId key s s'' :=
  ⟨h'.core.trans h.core, h'.events.trans h.events, h.ticks.trans h'.ticks⟩

/-- The attribute of the item is what it was. -/
theorem attribute_eq (h : Untouched env ciId key s s') (hkey : key ≠ "")
    (hci : s.dir.getCi env ciId = .ok (some ci)) (hci' : s'.dir.getCi env ciId = .ok (some ci')) :
    ci'.attribute key = ci.attribute key := by
  obtain ⟨content, core, ci₀, hcontent, hcore, hci₀, hview⟩ :=
    attribute_getCi hkey hci
  obtain ⟨content', core', ci₀', hcontent', hcore', hci₀', hview'⟩ :=
    attribute_getCi hkey hci'
  cases hcontent.symm.trans (h.core.symm.trans hcontent')
  cases hcore.symm.trans hcore'
  cases hci₀.symm.trans hci₀'
  rw [hview, hview', lastSet, h.events]
  rfl

end Untouched

theorem countOf_int (n : Int) : countOf env (.int n) = .ok n := by
  unfold countOf
  split
  · rfl
  · rename_i hzero
    have hn : n = 0 := by simpa [Json.truthy] using hzero
    rw [hn]
    rfl

/-- The count of an item is the value of the last event that sets it, and a later event will be the
last. -/
structure CountIs (env : Env) (ciId key : String) (n : ℕ) (s : Manager) : Prop where
  core : ∀ {content core ci₀}, (s.dir.ciDir ciId).core = some content →
    CmdbDir.coreValue env content = some core → ConfigItem.ofCore env ciId core = .ok ci₀ →
      ci₀.attribute key = none
  dated : ∀ e ∈ (s.dir.ciDir ciId).events env.floats, setsAttribute key e = true →
    ∃ ts, Assoc.get? e "ts" = some (.str ts) ∧ ts < env.now s.ticks
  last : lastSet (setsAttribute key) ((s.dir.ciDir ciId).events env.floats) = none ∧ n = 0 ∨
    ∃ e, lastSet (setsAttribute key) ((s.dir.ciDir ciId).events env.floats) = some e ∧
      e.get "value" = .int n

namespace CountIs

variable {n n' seq : ℕ} {s s' : Manager} {agent : String}

/-- What a pass reads of the count. -/
theorem countOf (h : CountIs env ciId key n s) (hkey : key ≠ "")
    (hci : s.dir.getCi env ciId = .ok (some ci)) :
    countOf env (getAttributeD ci.attributes key (.int 0)) = .ok (n : Int) := by
  obtain ⟨content, core, ci₀, hcontent, hcore, hci₀, hview⟩ := attribute_getCi hkey hci
  rw [h.core hcontent hcore hci₀] at hview
  have hget : getAttributeD ci.attributes key (.int 0) = (ci.attribute key).getD (.int 0) := rfl
  rw [hget, hview]
  rcases h.last with ⟨hlast, rfl⟩ | ⟨e, hlast, hvalue⟩
  · rw [hlast]
    rfl
  · rw [hlast, Option.map_some, Option.getD_some, Option.getD_some, hvalue, countOf_int]

/-- A counter that is absent. -/
theorem of_absent (hkey : key ≠ "") (hci : s.dir.getCi env ciId = .ok (some ci))
    (habsent : ci.attribute key = none) : CountIs env ciId key 0 s := by
  obtain ⟨content, core, ci₀, hcontent, hcore, hci₀, hview⟩ := attribute_getCi hkey hci
  rw [habsent] at hview
  cases hlast : lastSet (setsAttribute key) ((s.dir.ciDir ciId).events env.floats) with
  | some e =>
    rw [hlast] at hview
    cases hview
  | none =>
    rw [hlast] at hview
    have hnone := (latest_eq_none_iff _).mp hlast
    refine ⟨fun hcontent' hcore' hci₀' => ?_, fun e he hsets => ?_, .inl ⟨hlast, rfl⟩⟩
    · cases hcontent.symm.trans hcontent'
      cases hcore.symm.trans hcore'
      cases hci₀.symm.trans hci₀'
      exact hview.symm
    · have hmem : e ∈ ((s.dir.ciDir ciId).events env.floats).filter (setsAttribute key) :=
        List.mem_filter.mpr ⟨he, hsets⟩
      rw [hnone] at hmem
      cases hmem

theorem untouched (hnow : StrictMono env.now) (h : CountIs env ciId key n s)
    (hs : Untouched env ciId key s s') : CountIs env ciId key n s' := by
  refine ⟨fun hcontent => h.core (hs.core ▸ hcontent), fun e he hsets => ?_, ?_⟩
  · have hmem : e ∈ ((s'.dir.ciDir ciId).events env.floats).filter (setsAttribute key) :=
      List.mem_filter.mpr ⟨he, hsets⟩
    rw [hs.events] at hmem
    obtain ⟨ts, hts, hlt⟩ := h.dated e (List.mem_of_mem_filter hmem) hsets
    exact ⟨ts, hts, hlt.trans_le (hnow.monotone hs.ticks)⟩
  · have hlast := h.last
    unfold lastSet at hlast ⊢
    rw [hs.events]
    exact hlast

theorem get?_ts {n : Int} {ts : String} :
    Assoc.get? (countEvent env seq agent ts key n) "ts" = some (.str ts) := by
  rw [get?_countEvent]
  rfl

/-- **The event of a pass** is the last that sets the count. -/
theorem lands (hnow : StrictMono env.now) (h : CountIs env ciId key n s)
    (hlands : Lands env ciId agent (countEvent env seq agent (env.now s.ticks) key n') s s') :
    CountIs env ciId key n' s' := by
  obtain ⟨l, m, hold, hnew⟩ := hlands.events
  have hsets : setsAttribute key (countEvent env seq agent (env.now s.ticks) key n') = true := by
    rw [setsAttribute_countEvent, beq_self_eq_true]
  have hlt : env.now s.ticks < env.now s'.ticks := hnow (hlands.ticks ▸ Nat.lt_succ_self _)
  refine ⟨fun hcontent => h.core (hlands.core ▸ hcontent), fun e he hset => ?_, .inr ?_⟩
  · rw [hnew] at he
    rcases List.mem_append.mp he with he | he
    · obtain ⟨ts, hts, hbefore⟩ := h.dated e (hold ▸ List.mem_append_left m he) hset
      exact ⟨ts, hts, hbefore.trans hlt⟩
    · rcases List.mem_cons.mp he with rfl | he
      · exact ⟨_, get?_ts, hlt⟩
      · obtain ⟨ts, hts, hbefore⟩ := h.dated e (hold ▸ List.mem_append_right l he) hset
        exact ⟨ts, hts, hbefore.trans hlt⟩
  · have hlater : ∀ x ∈ l ++ m, setsAttribute key x = true →
        ¬eventKey (countEvent env seq agent (env.now s.ticks) key n') ≤ eventKey x := by
      intro x hx hset
      obtain ⟨ts, hts, hbefore⟩ := h.dated x (hold ▸ hx) hset
      unfold eventKey Dict.getD
      rw [hts, get?_ts]
      exact SortKey3.not_ofValues_le hbefore _ _ _ _
    refine ⟨_, hnew ▸ lastSet_insert_top hsets hlater, ?_⟩
    rw [Dict.get, get?_countEvent]
    rfl

end CountIs

/-! ### The status -/

/-- The status that events leave. -/
def statusOf (events : List Dict) : Json :=
  ((lastSet setsStatus events).map fun e => Dict.get e "status").getD
    (.str CIStatus.operational.value)

/-- The status of an item is what its events leave. -/
theorem status_getCi {dir : CmdbDir} (hci : dir.getCi env ciId = .ok (some ci)) :
    ci.status = statusOf ((dir.ciDir ciId).events env.floats) := by
  obtain ⟨content, core, ci₀, -, -, hci₀, hview⟩ :
      ∃ content core ci₀, (dir.ciDir ciId).core = some content ∧
        CmdbDir.coreValue env content = some core ∧ ConfigItem.ofCore env ciId core = .ok ci₀ ∧
        ci.status = ((lastSet setsStatus ((dir.ciDir ciId).events env.floats)).map
          fun e => Dict.get e "status").getD ci₀.status :=
    view_getCi status_step hci
  rw [hview, (defaults_ofCore hci₀).2.1, statusOf]

/-- The item is retired. -/
def IsRetired (env : Env) (ciId : String) (s : Manager) : Prop :=
  statusOf ((s.dir.ciDir ciId).events env.floats) = .str CIStatus.retired.value

section

variable {s s' : Manager} {agent : String} {seq : ℕ}

theorem Later.isRetired (h : Later ciId s s') : IsRetired env ciId s' ↔ IsRetired env ciId s := by
  unfold IsRetired
  rw [h.dir]

/-- An event that sets no status. -/
theorem Lands.isRetired_of_not (h : Lands env ciId agent e s s') (hsets : setsStatus e = false) :
    IsRetired env ciId s' ↔ IsRetired env ciId s := by
  obtain ⟨l, m, hold, hnew⟩ := h.events
  unfold IsRetired statusOf
  rw [hold, hnew, lastSet_insert_of_not hsets]

/-- A retirement leaves a retired item retired, wherever its event comes in the order. -/
theorem Lands.isRetired {ts note : String}
    (h : Lands env ciId agent (retiredEvent env seq agent ts note) s s')
    (hretired : IsRetired env ciId s) : IsRetired env ciId s' := by
  obtain ⟨l, m, hold, hnew⟩ := h.events
  unfold IsRetired statusOf at hretired ⊢
  rw [hold] at hretired
  rw [hnew]
  cases hlast : lastSet setsStatus (l ++ m) with
  | none =>
    rw [hlast] at hretired
    exact absurd (Json.str.inj hretired) (by decide)
  | some a =>
    rw [hlast] at hretired
    obtain ⟨b, hb, rfl | rfl⟩ := lastSet_insert (e := retiredEvent env seq agent ts note) hlast
    · rw [hb]
      exact hretired
    · rw [hb, Option.map_some, Option.getD_some, Dict.get, get?_retiredEvent]
      rfl

end

/-! ### What a pass does to an item -/

section

variable {s s' : Manager} {actions : List RetirementAction} {previous : Int}

/-- A pass counts in its own attribute. -/
theorem Counted.untouched (h : Counted env p ciId s s' actions ci previous) (hne : key ≠ p.key) :
    Untouched env ciId key s s' := by
  obtain ⟨s₁, s₂, hbefore, ⟨-, hwrites⟩, hbehind⟩ := h.advances
  have hcount {seq : ℕ} {ts : String} {n : Int} :
      setsAttribute key (countEvent env seq p.agent ts p.key n) = false := by
    rw [setsAttribute_countEvent]
    exact beq_eq_false_iff_ne.mpr hne.symm
  refine (Untouched.of_later hbefore).trans (Untouched.trans ?_ (.of_later hbehind))
  rcases hwrites with ⟨-, -, rfl⟩ | ⟨seq, t, hlands, ⟨-, rfl⟩ | ⟨-, seq', hlands'⟩⟩
  · exact .of_later (.refl _ _)
  · exact .of_lands hlands hcount
  · exact (Untouched.of_lands hlands hcount).trans (.of_lands hlands' setsAttribute_retiredEvent)

/-- **The count** behind a pass. -/
theorem Counted.countIs (hnow : StrictMono env.now) {n : ℕ}
    (h : Counted env p ciId s s' actions ci n) (hcount : CountIs env ciId p.key n s) :
    CountIs env ciId p.key (if ciId ∈ p.discoveredIds then 0 else n + 1) s' := by
  obtain ⟨s₁, s₂, hbefore, ⟨-, hwrites⟩, hbehind⟩ := h.advances
  have hmisses : p.misses ciId n = ((if ciId ∈ p.discoveredIds then 0 else n + 1 : ℕ) : Int) := by
    unfold RetirementPass.misses
    split <;> rfl
  rw [hmisses] at hwrites
  have hcount₁ := hcount.untouched hnow (.of_later hbefore)
  refine CountIs.untouched hnow ?_ (.of_later hbehind)
  rcases hwrites with ⟨hsame, -, rfl⟩ | ⟨seq, t, hlands, ⟨-, rfl⟩ | ⟨-, seq', hlands'⟩⟩
  · rw [Int.ofNat_inj.mp hsame]
    exact hcount₁
  · exact hcount₁.lands hnow hlands
  · exact (hcount₁.lands hnow hlands).untouched hnow (.of_lands hlands' setsAttribute_retiredEvent)

/-- A pass leaves a retired item retired. -/
theorem Counted.isRetired (h : Counted env p ciId s s' actions ci previous)
    (hretired : IsRetired env ciId s) : IsRetired env ciId s' := by
  obtain ⟨s₁, s₂, hbefore, ⟨-, hwrites⟩, hbehind⟩ := h.advances
  rw [hbehind.isRetired]
  have hretired₁ := hbefore.isRetired.mpr hretired
  rcases hwrites with ⟨-, -, rfl⟩ | ⟨seq, t, hlands, ⟨-, rfl⟩ | ⟨-, seq', hlands'⟩⟩
  · exact hretired₁
  · exact (hlands.isRetired_of_not setsStatus_countEvent).mpr hretired₁
  · exact hlands'.isRetired ((hlands.isRetired_of_not setsStatus_countEvent).mpr hretired₁)

/-- An item that a pass finds in use is retired by it only at the threshold. -/
theorem Counted.retires_of_isRetired (h : Counted env p ciId s s' actions ci previous)
    (hlive : ¬IsRetired env ciId s) (hretired : IsRetired env ciId s') :
    p.retires ci (p.misses ciId previous) = true := by
  obtain ⟨s₁, s₂, hbefore, ⟨-, hwrites⟩, hbehind⟩ := h.advances
  rw [hbehind.isRetired] at hretired
  rw [← hbefore.isRetired] at hlive
  rcases hwrites with ⟨-, -, rfl⟩ | ⟨seq, t, hlands, ⟨-, rfl⟩ | ⟨hretires, -⟩⟩
  · exact absurd hretired hlive
  · exact absurd ((hlands.isRetired_of_not setsStatus_countEvent).mp hretired) hlive
  · exact hretires

end

/-! ### Histories -/

/-- A pass of the authority, with its threshold, that owns the item. -/
structure RetirementPass.IsOf (p : RetirementPass) (authority scopeFingerprint : String)
    (threshold : Int) (ciId : String) : Prop where
  authority : p.authority = authority
  scopeFingerprint : p.scopeFingerprint = scopeFingerprint
  threshold : p.threshold = threshold
  owns : ciId ∈ p.ownedIds

/-- The history behind a pass: whether each complete pass of the authority discovered the item, the
last one first. -/
def RetirementPass.outcome (p : RetirementPass) (ciId : String) (history : List Bool) : List Bool :=
  if p.complete then decide (ciId ∈ p.discoveredIds) :: history else history

/-- What passes that return, passes of other authorities or scopes, and other writers, who leave the
count alone, make of a store; `Ok` is required of a pass and the store that it runs on. -/
inductive History (env : Env) (Ok : RetirementPass → Manager → Prop)
    (ciId authority scopeFingerprint : String) (threshold : Int) (s₀ : Manager) :
    List Bool → Manager → Prop where
  | start : History env Ok ciId authority scopeFingerprint threshold s₀ [] s₀
  | pass (history : List Bool) (s s' : Manager) (p : RetirementPass)
    (actions : List RetirementAction)
    (h : History env Ok ciId authority scopeFingerprint threshold s₀ history s)
    (hp : p.IsOf authority scopeFingerprint threshold ciId) (htag : s.dir.IsTagged env ciId)
    (hok : Ok p s) (hrun : (applyRetirementLifecycle env p true).run s = (.ok actions, s')) :
    History env Ok ciId authority scopeFingerprint threshold s₀ (p.outcome ciId history) s'
  | foreign (history : List Bool) (s s' : Manager) (p : RetirementPass)
    (actions : List RetirementAction)
    (h : History env Ok ciId authority scopeFingerprint threshold s₀ history s)
    (hp : p.authority ≠ authority ∨ p.scopeFingerprint ≠ scopeFingerprint)
    (hok : Ok p s) (hrun : (applyRetirementLifecycle env p true).run s = (.ok actions, s')) :
    History env Ok ciId authority scopeFingerprint threshold s₀ history s'
  | other (history : List Bool) (s s' : Manager)
    (h : History env Ok ciId authority scopeFingerprint threshold s₀ history s)
    (hs : Untouched env ciId (missesKey authority scopeFingerprint) s s') :
    History env Ok ciId authority scopeFingerprint threshold s₀ history s'

/-- How many passes in a row, up to the last one, did not discover the item. -/
def streak (history : List Bool) : ℕ := (history.takeWhile fun hit => !hit).length

theorem missesKey_ne_empty (authority scopeFingerprint : String) :
    missesKey authority scopeFingerprint ≠ "" := by
  unfold missesKey
  intro h
  have hlist := congrArg String.toList h
  simp only [String.toList_append, String.toList_empty, List.append_eq_nil_iff] at hlist
  have hfirst := hlist.1.1.1
  simp at hfirst

/-- Authorities and scopes have keys of their own. -/
theorem missesKey_inj {a b s t : String} (hs : isScopeFingerprint s = true)
    (ht : isScopeFingerprint t = true) (h : missesKey a s = missesKey b t) : a = b ∧ s = t := by
  have hlength {x : String} (hx : isScopeFingerprint x = true) : x.toList.length = 64 :=
    beq_iff_eq.mp (Bool.and_eq_true_iff.mp hx).1
  have hsame : s.toList.length = t.toList.length := by rw [hlength hs, hlength ht]
  have hlist := congrArg String.toList h
  unfold missesKey at hlist
  simp only [String.toList_append, List.append_assoc] at hlist
  have hrest := List.append_cancel_left hlist
  rw [← List.append_assoc, ← List.append_assoc] at hrest
  obtain ⟨hauthority, hscope⟩ := List.append_inj' hrest hsame
  exact ⟨String.toList_inj.mp (List.append_cancel_right hauthority), String.toList_inj.mp hscope⟩

/-- A pass that returned has a scope. -/
theorem isScopeFingerprint_of_run {apply : Bool} {s s' : Manager} {actions : List RetirementAction}
    (h : (applyRetirementLifecycle env p apply).run s = (.ok actions, s')) :
    isScopeFingerprint p.scopeFingerprint = true := by
  unfold applyRetirementLifecycle at h
  split at h
  · cases h
  · split at h
    · cases h
    · rename_i hscope
      rw [Bool.or_eq_true, not_or] at hscope
      simpa using hscope.2

section

variable {authority scopeFingerprint : String} {threshold : Int} {s₀ s s' : Manager}
  {history : List Bool} {actions : List RetirementAction}

/-- **A foreign pass** leaves the count alone. -/
theorem untouched_foreign (hscope : isScopeFingerprint scopeFingerprint = true)
    (hp : p.authority ≠ authority ∨ p.scopeFingerprint ≠ scopeFingerprint)
    (hclean : p.Clean env s.dir ciId)
    (hrun : (applyRetirementLifecycle env p true).run s = (.ok actions, s')) :
    Untouched env ciId (missesKey authority scopeFingerprint) s s' := by
  rcases run_pass_clean hclean hrun with ⟨-, hlater, -⟩ | ⟨ci, previous, hcounted⟩
  · exact .of_later hlater
  · refine hcounted.untouched fun heq => ?_
    obtain ⟨ha, hs⟩ := missesKey_inj hscope (isScopeFingerprint_of_run hrun) heq
    exact hp.elim (fun hne => hne ha.symm) fun hne => hne hs.symm

/-- A pass of the authority counts the item. -/
theorem counted_of_isOf
    (hp : p.IsOf authority scopeFingerprint threshold ciId) (htag : s.dir.IsTagged env ciId)
    (hclean : p.Clean env s.dir ciId) {n : ℕ}
    (hcount : CountIs env ciId (missesKey authority scopeFingerprint) n s)
    (hcomplete : p.complete = true)
    (hrun : (applyRetirementLifecycle env p true).run s = (.ok actions, s')) :
    p.key = missesKey authority scopeFingerprint ∧
      ∃ ci, Counted env p ciId s s' actions ci (n : Int) := by
  have hkey : p.key = missesKey authority scopeFingerprint := by
    rw [RetirementPass.key, hp.authority, hp.scopeFingerprint]
  rcases run_pass_clean hclean hrun with ⟨howns | htag', -⟩ | ⟨ci, previous, hcounted⟩
  · exact absurd ⟨hcomplete, hp.owns⟩ howns
  · exact absurd htag htag'
  · obtain ⟨s₁, s₂, -, hadvances, -⟩ := hcounted.advances
    have hread := hcount.countOf (missesKey_ne_empty _ _) hcounted.item
    rw [← hkey] at hread
    cases hread.symm.trans hadvances.count
    exact ⟨hkey, ci, hcounted⟩

theorem streak_outcome (hcomplete : p.complete = true) :
    streak (p.outcome ciId history) = if ciId ∈ p.discoveredIds then 0 else streak history + 1 := by
  unfold streak RetirementPass.outcome
  rw [if_pos hcomplete, List.takeWhile_cons]
  by_cases hmem : ciId ∈ p.discoveredIds
  · rw [if_pos hmem, decide_eq_true hmem]
    rfl
  · rw [if_neg hmem, decide_eq_false hmem]
    rfl

/-- **The count of a history** is the number of passes in a row that did not discover the item. -/
theorem History.countIs (hnow : StrictMono env.now)
    (hscope : isScopeFingerprint scopeFingerprint = true)
    (hstart : CountIs env ciId (missesKey authority scopeFingerprint) 0 s₀)
    (h : History env (fun p s => p.Clean env s.dir ciId) ciId authority scopeFingerprint threshold
      s₀ history s) :
    CountIs env ciId (missesKey authority scopeFingerprint) (streak history) s := by
  induction h with
  | start => exact hstart
  | pass history s s' p actions _ hp htag hclean hrun ih =>
    cases hcomplete : p.complete with
    | true =>
      obtain ⟨hkey, ci, hcounted⟩ := counted_of_isOf hp htag hclean ih hcomplete hrun
      rw [streak_outcome hcomplete]
      rw [← hkey] at ih ⊢
      exact hcounted.countIs hnow ih
    | false =>
      obtain rfl := (run_pass ciId hrun).2.1 hcomplete
      rw [RetirementPass.outcome, hcomplete, if_neg Bool.false_ne_true]
      exact ih
  | foreign history s s' p actions _ hp hclean hrun ih =>
    exact ih.untouched hnow (untouched_foreign hscope hp hclean hrun)
  | other history s s' _ hs ih => exact ih.untouched hnow hs

/-- The pass sets the item retired: it says so, or the fold shows it. -/
def SetsRetired (env : Env) (ciId : String) (s s' : Manager) (actions : List RetirementAction) :
    Prop :=
  (∃ a ∈ actions, a.ciId = ciId ∧ a.action = "retire") ∨
    ∃ ci ci', s.dir.getCi env ciId = .ok (some ci) ∧ s'.dir.getCi env ciId = .ok (some ci') ∧
      ci.status ≠ .str CIStatus.retired.value ∧ ci'.status = .str CIStatus.retired.value

/-- Only a complete pass sets an item retired. -/
theorem complete_of_setsRetired
    (hrun : (applyRetirementLifecycle env p true).run s = (.ok actions, s'))
    (hsets : SetsRetired env ciId s s' actions) : p.complete = true := by
  obtain ⟨-, hincomplete, hcases⟩ := run_pass ciId hrun
  rcases hcases with ⟨-, hlater, hactions⟩ | ⟨howns, -⟩
  · rcases hsets with ⟨a, ha, hid, -⟩ | ⟨ci, ci', hci, hci', hlive, hretired⟩
    · exact absurd hid (hactions a ha)
    · rw [hlater.getCi, hci] at hci'
      cases hci'
      exact absurd hretired hlive
  · exact howns.1

/-- The last passes, as many as the threshold and this one among them, did not discover the item. -/
structure MissedInARow (p : RetirementPass) (ciId : String) (history : List Bool) : Prop where
  complete : p.complete = true
  misses : ciId ∉ p.discoveredIds
  enough : p.threshold ≤ history.length + 1
  before : ∀ hit ∈ history.take (p.threshold.toNat - 1), hit = false

/-- A streak is made of misses. -/
theorem missedInARow_of_streak (hcomplete : p.complete = true) (hmiss : ciId ∉ p.discoveredIds)
    (h : p.threshold ≤ streak history + 1) : MissedInARow p ciId history := by
  have hprefix : (history.takeWhile fun hit => !hit) <+: history := List.takeWhile_prefix _
  have hlength : streak history ≤ history.length := hprefix.length_le
  refine ⟨hcomplete, hmiss, by omega, fun hit hhit => ?_⟩
  have hmem : hit ∈ history.takeWhile fun hit => !hit := by
    rw [List.prefix_iff_eq_take.mp hprefix]
    refine List.take_subset_take_left history ?_ hhit
    change p.threshold.toNat - 1 ≤ streak history
    omega
  simpa using List.mem_takeWhile_imp hmem

/-- What the passes of a history keep to: four things, of which the third is the rule that only
misses in a row retire an item. -/
structure RetiresByRule (env : Env) (ciId authority scopeFingerprint : String) (threshold : Int)
    (history : List Bool) (s : Manager) (p : RetirementPass) (actions : List RetirementAction)
    (s' : Manager) : Prop where
  /-- A pass that is not complete changes nothing. -/
  incomplete : p.complete = false → s' = s
  /-- A retired item stays retired. -/
  stays : ∀ ci ci', s.dir.getCi env ciId = .ok (some ci) → s'.dir.getCi env ciId = .ok (some ci') →
    ci.status = .str CIStatus.retired.value → ci'.status = .str CIStatus.retired.value
  /-- A pass of the authority retires the item only behind enough misses. -/
  retires : p.IsOf authority scopeFingerprint threshold ciId → s.dir.IsTagged env ciId →
    SetsRetired env ciId s s' actions → MissedInARow p ciId history
  /-- A pass of another authority or scope leaves the count. -/
  foreign : p.authority ≠ authority ∨ p.scopeFingerprint ≠ scopeFingerprint →
    ∀ ci ci', s.dir.getCi env ciId = .ok (some ci) → s'.dir.getCi env ciId = .ok (some ci') →
      ci'.attribute (missesKey authority scopeFingerprint) =
        ci.attribute (missesKey authority scopeFingerprint)

/-- **Retirement needs consecutive misses**: in a history from a store without the count, whose
passes write to the item only behind finished lines, every such pass keeps to the rule. -/
theorem history_retiresByRule (hnow : StrictMono env.now)
    (hscope : isScopeFingerprint scopeFingerprint = true)
    (hstart : ∃ ci, s₀.dir.getCi env ciId = .ok (some ci) ∧
      ci.attribute (missesKey authority scopeFingerprint) = none)
    (h : History env (fun p s => p.Clean env s.dir ciId) ciId authority scopeFingerprint threshold
      s₀ history s) (hclean : p.Clean env s.dir ciId)
    (hrun : (applyRetirementLifecycle env p true).run s = (.ok actions, s')) :
    RetiresByRule env ciId authority scopeFingerprint threshold history s p actions s' := by
  obtain ⟨ci₀, hci₀, habsent⟩ := hstart
  have hcount := h.countIs hnow hscope (CountIs.of_absent (missesKey_ne_empty _ _) hci₀ habsent)
  refine ⟨(run_pass ciId hrun).2.1, fun ci ci' hci hci' hretired => ?_,
    fun hp htag hsets => ?_, fun hp ci ci' hci hci' => ?_⟩
  · rw [status_getCi hci] at hretired
    rw [status_getCi hci']
    rcases run_pass_clean hclean hrun with ⟨-, hlater, -⟩ | ⟨ci, previous, hcounted⟩
    · exact hlater.isRetired.mpr hretired
    · exact hcounted.isRetired hretired
  · have hcomplete : p.complete = true := complete_of_setsRetired hrun hsets
    obtain ⟨hkey, ci, hcounted⟩ := counted_of_isOf hp htag hclean hcount hcomplete hrun
    have hretires : p.retires ci (p.misses ciId (streak history)) = true := by
      rcases hsets with hsays | ⟨ci₁, ci₂, hci₁, hci₂, hlive, hretired⟩
      · exact hcounted.retires hsays
      · rw [status_getCi hci₁] at hlive
        rw [status_getCi hci₂] at hretired
        exact hcounted.retires_of_isRetired hlive hretired
    have hthreshold : p.threshold ≤ p.misses ciId (streak history) := by
      by_contra hlt
      rw [retires_of_not_lt hlt] at hretires
      cases hretires
    have hpositive := hcounted.threshold
    unfold RetirementPass.misses at hthreshold
    split at hthreshold
    · omega
    · rename_i hmiss
      exact missedInARow_of_streak hcomplete hmiss hthreshold
  · exact (untouched_foreign hscope hp hclean hrun).attribute_eq (missesKey_ne_empty _ _) hci hci'

end

/-! ### Passes over one item -/

/-- **A pass over one item** retires it where the item is in use and at its threshold. -/
theorem run_pass_retires {s : Manager} {text : List Char} {dependents : List Dependent} {n : Int}
    (howned : p.ownedIds = [ciId]) (hcomplete : p.complete = true) (hthreshold : 1 ≤ p.threshold)
    (hauthority : isBlank p.authority = false)
    (hscope : isScopeFingerprint p.scopeFingerprint = true)
    (hci : s.dir.getCi env ciId = .ok (some ci)) (htag : discoveredTag ∈ ci.tags)
    (hcount : countOf env (getAttributeD ci.attributes p.key (.int 0)) = .ok n)
    (hretires : p.retires ci (p.misses ciId n) = true)
    (hdependents : impactDependents env s.dir ciId = .ok dependents)
    (hkey : validateAttributeWrite env (.obj [(p.key, .int (p.misses ciId n))]) = .ok ())
    (htext : decodeUtf8 (s.dir.log ciId (writerFile env p.agent)) = some text) :
    ∃ s', (applyRetirementLifecycle env p true).run s =
      (.ok [⟨ciId, p.authority, "retire", p.misses ciId n, p.threshold, dependents⟩], s') := by
  have henough : p.threshold ≤ p.misses ciId n := by
    by_contra hlt
    rw [retires_of_not_lt hlt] at hretires
    cases hretires
  have hne : p.misses ciId n ≠ n := fun hsame => not_lt_of_misses_eq hthreshold hsame henough
  have hids : [ciId].dedup.insertionSort (fun x y => x ≤ y) = [ciId] := rfl
  have hfilter : (some ci).filter (fun ci => ci.tags.contains discoveredTag) = some ci := by
    rw [Option.filter_some, if_pos (List.contains_iff_mem.mpr htag)]
  -- behind the count the log holds one line more, and can be read again
  obtain ⟨s₁, hs₁, htext₁⟩ : ∃ s₁,
      (setAttribute env ciId p.agent p.key (.int (p.misses ciId n))).run s = (.ok (), s₁) ∧
        ∃ text₁, decodeUtf8 (s₁.dir.log ciId (writerFile env p.agent)) = some text₁ := by
    unfold setAttribute
    rw [hkey, run_lift_bind]
    refine ⟨_, run_append "attribute" _ htext, ?_⟩
    rw [log_setLog]
    exact ⟨_, decodeUtf8_append htext _⟩
  obtain ⟨text₁, htext₁⟩ := htext₁
  obtain ⟨s₂, hs₂⟩ : ∃ s₂,
      (setStatus env ciId p.agent CIStatus.retired.value p.note).run s₁ = (.ok (), s₂) :=
    ⟨_, run_append "status" _ htext₁⟩
  have hcounts : (onlyIf (true && p.misses ciId n ≠ n)
      (setAttribute env ciId p.agent p.key (.int (p.misses ciId n)))).run s = (.ok (), s₁) := by
    rw [run_onlyIf, if_pos (by simpa using hne)]
    exact hs₁
  have hsets : (onlyIf (true && p.retires ci (p.misses ciId n))
      (setStatus env ciId p.agent CIStatus.retired.value p.note)).run s₁ = (.ok (), s₂) := by
    rw [run_onlyIf, hretires, if_pos (by decide)]
    exact hs₂
  have hitem : (advanceItem env p true ciId ci).run s =
      (.ok ⟨ciId, p.authority, "retire", p.misses ciId n, p.threshold, dependents⟩, s₂) := by
    unfold advanceItem
    rw [hcount, run_lift_bind]
    dsimp only
    rw [run_get_bind, if_pos henough, hdependents, run_lift_bind]
    dsimp only
    rw [run_bind_of_ok hcounts, run_bind_of_ok hsets, hretires]
    rfl
  refine ⟨s₂, ?_⟩
  unfold applyRetirementLifecycle
  rw [if_neg (by omega), hauthority, hscope, if_neg (by decide), if_pos hcomplete, howned, hids,
    advanceItems, run_get_bind, hci, run_lift_bind]
  dsimp only
  rw [hfilter]
  dsimp only
  rw [run_bind_of_ok hitem, advanceItems]
  rfl

/-! ### A line that is lost -/

/-- A scope. -/
def sampleScope : String := String.ofList (List.replicate 64 'a')

/-- A complete pass over one item. -/
def samplePass (agent : String) (discoveredIds : List String) (threshold : Int) :
    RetirementPass where
  authority := "systemd"
  scopeFingerprint := sampleScope
  discoveredIds
  ownedIds := ["ci-x"]
  complete := true
  threshold
  agent

/-- A store with one discovered item, and a log with this content. -/
def storeWithLog (file : String) (content : List Char) : Manager where
  dir := [("ci-x",
    { core := some (encodeUtf8 ((Json.obj [("id", .str "ci-x"),
        ("tags", .arr [.str discoveredTag])]).dumps zeroFloats .compact))
      logs := [(file, encodeUtf8 content)]
      nodup := List.nodup_singleton _ })]

/-- The store behind a pass. -/
def afterPass (p : RetirementPass) (s : Manager) : Manager :=
  ((applyRetirementLifecycle unaryMachine p true).run s).2

theorem run_afterPass {s : Manager}
    (h : ((applyRetirementLifecycle unaryMachine p true).run s).1.isOk = true) :
    ∃ actions,
      (applyRetirementLifecycle unaryMachine p true).run s = (.ok actions, afterPass p s) :=
  (isOk_iff.mp h).imp fun _ ha => Prod.ext ha rfl

/-- What the item folds to. -/
def sampleFold {α : Type} (f : ConfigItem → α) (s : Manager) : Option α :=
  ((s.dir.getCi unaryMachine "ci-x").toOption.bind id).map f

theorem getCi_of_sampleFold {α : Type} {f : ConfigItem → α} {s : Manager} {x : α}
    (h : sampleFold f s = some x) :
    ∃ ci, s.dir.getCi unaryMachine "ci-x" = .ok (some ci) ∧ f ci = x := by
  obtain ⟨ci, hci, hx⟩ := Option.map_eq_some_iff.mp h
  obtain ⟨found, hfound, hsome⟩ := Option.bind_eq_some_iff.mp hci
  exact ⟨ci, (toOption_eq_some.mp hfound).trans (congrArg Except.ok hsome), hx⟩

/-- The core of the item of a store with a log. -/
def loggedCore : Dict := [("id", .str "ci-x"), ("tags", .arr [.str discoveredTag])]

theorem coreValue_loggedCore : CmdbDir.coreValue unaryMachine
    (encodeUtf8 ((Json.obj loggedCore).dumps zeroFloats .compact)) = some (.obj loggedCore) := by
  rw [CmdbDir.coreValue, decodeUtf8_encodeUtf8, Option.bind_some]
  refine Json.loads_dumps _ _ ?_
  simp [loggedCore, Json.WellFormed, Json.FieldsWellFormed, Json.ElemsWellFormed, Assoc.keys]

/-- The store behind the first miss. -/
def missedOnce : Manager := afterPass (samplePass "a" [] 2) (storeWithLog "a@box.jsonl" [])

/-- The event of the first miss. -/
def firstMiss : Dict :=
  newEvent unaryMachine 0 "a" "attribute" ""
    [("key", .str (missesKey "systemd" sampleScope)), ("value", .int 1)]

/-- What the store holds behind the first miss. -/
theorem dir_missedOnce : missedOnce.dir.ciNames = ["ci-x"] ∧
    (missedOnce.dir.ciDir "ci-x").core =
      some (encodeUtf8 ((Json.obj loggedCore).dumps zeroFloats .compact)) ∧
    (missedOnce.dir.ciDir "ci-x").logs =
      [("a@box.jsonl", [firstMiss].foldl (withLine zeroFloats) [])] := by
  decide +kernel

/-- What the item is behind the first miss. -/
theorem getCi_missedOnce : missedOnce.dir.getCi unaryMachine "ci-x" =
    itemOfLines unaryMachine "ci-x" "a@box.jsonl" (.obj loggedCore) [firstMiss] := by
  obtain ⟨-, hcore, hlogs⟩ := dir_missedOnce
  refine getCi_of_lines hcore coreValue_loggedCore hlogs (by decide +kernel) fun e he => ?_
  rw [List.mem_singleton.mp he]
  exact stamped_newEvent

/-- **The second miss** retires the item: one complete pass at threshold two has missed it and
counted, and the next pass that misses it sets it retired. -/
theorem history_retiresByRule_second : ∃ actions s',
    History unaryMachine (fun p s => p.Clean unaryMachine s.dir "ci-x") "ci-x" "systemd" sampleScope
      2 (storeWithLog "a@box.jsonl" []) [false] missedOnce ∧
    (applyRetirementLifecycle unaryMachine (samplePass "a" [] 2) true).run missedOnce =
      (.ok actions, s') ∧
    SetsRetired unaryMachine "ci-x" missedOnce s' actions ∧
    RetiresByRule unaryMachine "ci-x" "systemd" sampleScope 2 [false] missedOnce
      (samplePass "a" [] 2) actions s' := by
  have hof : (samplePass "a" [] 2).IsOf "systemd" sampleScope 2 "ci-x" :=
    ⟨rfl, rfl, rfl, by decide⟩
  -- the first pass finds the log empty
  obtain ⟨first, hfirst⟩ := run_afterPass (p := samplePass "a" [] 2)
    (s := storeWithLog "a@box.jsonl" []) (by decide +kernel)
  obtain ⟨ci₀, hci₀, hstart⟩ := getCi_of_sampleFold (s := storeWithLog "a@box.jsonl" [])
    (f := fun ci => ((ci.attribute (missesKey "systemd" sampleScope)).isSome,
      ci.tags.contains discoveredTag)) (x := (false, true)) (by decide +kernel)
  obtain ⟨habsent, htag₀⟩ := Prod.mk.inj hstart
  have hnone := Option.isNone_iff_eq_none.mp (Option.isSome_eq_false_iff.mp habsent)
  have hhistory : History unaryMachine (fun p s => p.Clean unaryMachine s.dir "ci-x") "ci-x"
      "systemd" sampleScope 2 (storeWithLog "a@box.jsonl" []) [false] missedOnce := by
    refine .pass [] _ _ _ first .start hof ⟨ci₀, hci₀, List.contains_iff_mem.mp htag₀⟩
      (fun _ text htext => ?_) hfirst
    have hempty : text = [] := (Option.some.inj htext).symm
    rw [hempty]
    decide
  -- the second one counts behind the line of the first
  obtain ⟨ci, hci, hview⟩ := getCi_of_sampleFold (s := missedOnce)
    (f := fun ci => (ci.tags.contains discoveredTag, ci.status.pyEq (.str CIStatus.retired.value),
      (countOf unaryMachine (getAttributeD ci.attributes (samplePass "a" [] 2).key
        (.int 0))).toOption)) (x := (true, false, some 1)) (by
      rw [sampleFold, getCi_missedOnce]
      decide +kernel)
  obtain ⟨htag, hview⟩ := Prod.mk.inj hview
  obtain ⟨hlive, hcount⟩ := Prod.mk.inj hview
  have hdependents : impactDependents unaryMachine missedOnce.dir "ci-x" =
      .ok ([ci].flatMap (dependentsOf "ci-x")) := by
    rw [impactDependents, hci, ok_bind]
    dsimp only
    rw [CmdbDir.listCis, dir_missedOnce.1, List.mapM_cons, List.mapM_nil, hci]
    rfl
  have hlog : missedOnce.dir.log "ci-x" (writerFile unaryMachine "a") =
      [firstMiss].foldl (withLine zeroFloats) [] := by
    have hfile : writerFile unaryMachine "a" = "a@box.jsonl" := by decide +kernel
    have hget : Assoc.get? (missedOnce.dir.ciDir "ci-x").logs "a@box.jsonl" =
        some ([firstMiss].foldl (withLine zeroFloats) []) := by
      rw [dir_missedOnce.2.2]
      exact if_pos rfl
    rw [hfile, CmdbDir.log, hget, Option.getD_some]
  have hdecode : decodeUtf8 (missedOnce.dir.log "ci-x" (writerFile unaryMachine "a")) =
      some ([] ++ lineOf zeroFloats firstMiss) := by
    rw [hlog]
    exact decodeUtf8_append rfl _
  have hclosed : missedOnce.dir.LogClosed unaryMachine "ci-x" "a" := by
    intro text htext
    obtain rfl := Option.some.inj (htext.symm.trans hdecode)
    exact closed_lineOf [] firstMiss
  obtain ⟨s', hrun⟩ := run_pass_retires (p := samplePass "a" [] 2) (n := 1) rfl rfl (by decide)
    (by decide +kernel) (by decide +kernel) hci (List.contains_iff_mem.mp htag)
    (toOption_eq_some.mp hcount)
    (by rw [RetirementPass.retires, hlive]; decide) hdependents
    (by decide +kernel) hdecode
  exact ⟨_, s', hhistory, hrun, .inl ⟨_, List.mem_singleton_self _, rfl, rfl⟩,
    history_retiresByRule strictMono_unary (by decide +kernel) ⟨ci₀, hci₀, hnone⟩ hhistory
      (fun _ => hclosed) hrun⟩

/-- A retired item, whose log lost the newline behind its only line. -/
def cutLogStore : Manager :=
  storeWithLog "a@box.jsonl"
    ((Json.obj [("action", .str "status"), ("status", .str CIStatus.retired.value)]).dumps
      zeroFloats .compact)

/-- The only line of the log. -/
def cutLine : List Char :=
  (Json.obj [("action", .str "status"), ("status", .str CIStatus.retired.value)]).dumps
    zeroFloats .compact

/-- The event that counts the miss. -/
def lostEvent : Dict :=
  newEvent unaryMachine 1 "a" "attribute" ""
    [("key", .str (missesKey "systemd" sampleScope)), ("value", .int 1)]

/-- Behind the pass the log holds one line, which is no JSON. -/
theorem readEvents_cutLog :
    (afterPass (samplePass "a" [] 2) cutLogStore).dir.readEvents unaryMachine "ci-x" = .ok [] := by
  have hlogs : ((afterPass (samplePass "a" [] 2) cutLogStore).dir.ciDir "ci-x").logs =
      [("a@box.jsonl", withLine zeroFloats (encodeUtf8 cutLine) lostEvent)] := by decide +kernel
  have hsorted : ((afterPass (samplePass "a" [] 2) cutLogStore).dir.ciDir "ci-x").sortedLogs =
      [("a@box.jsonl", withLine zeroFloats (encodeUtf8 cutLine) lostEvent)] := by
    rw [CiDir.sortedLogs, hlogs, List.filter_cons_of_pos (by decide +kernel)]
    rfl
  have htext : readText (withLine zeroFloats (encodeUtf8 cutLine) lostEvent) =
      .ok (cutLine ++ ((Json.obj lostEvent).dumps zeroFloats .spaced ++ ['\n'])) :=
    readText_eq_ok.mpr (decodeUtf8_append (decodeUtf8_encodeUtf8 cutLine) _)
  have hnone : finished cutLine = [] := by decide +kernel
  have hopen : ¬Closed cutLine := by
    unfold Closed
    decide +kernel
  have hread : eventsOfText zeroFloats
      (cutLine ++ ((Json.obj lostEvent).dumps zeroFloats .spaced ++ ['\n'])) = [] := by
    have hstamped : Stamped lostEvent := stamped_newEvent
    rw [eventsOfText_append hstamped, hnone, if_neg hopen]
    rfl
  rw [CmdbDir.readEvents, hsorted, List.mapM_cons, List.mapM_nil, readLog, htext, ok_bind,
    show unaryMachine.floats = zeroFloats from rfl, hread]
  rfl

/-- The count is written behind the unfinished line, so both are lost and the item is in use. -/
theorem cutLog_breaks_rule : StrictMono unaryMachine.now ∧
    isScopeFingerprint sampleScope = true ∧
    (∃ ci, cutLogStore.dir.getCi unaryMachine "ci-x" = .ok (some ci) ∧
      ci.attribute (missesKey "systemd" sampleScope) = none) ∧
    History unaryMachine (fun _ _ => True) "ci-x" "systemd" sampleScope 2 cutLogStore []
      cutLogStore ∧
    ∃ actions s',
      (applyRetirementLifecycle unaryMachine (samplePass "a" [] 2) true).run cutLogStore =
        (.ok actions, s') ∧
      ¬RetiresByRule unaryMachine "ci-x" "systemd" sampleScope 2 [] cutLogStore
        (samplePass "a" [] 2) actions s' := by
  obtain ⟨actions, hrun⟩ := run_afterPass (p := samplePass "a" [] 2) (s := cutLogStore)
    (by decide +kernel)
  obtain ⟨ci, hci, hbefore⟩ := getCi_of_sampleFold (s := cutLogStore)
    (f := fun ci => ((ci.attribute (missesKey "systemd" sampleScope)).isSome,
      ci.status.pyEq (.str CIStatus.retired.value))) (x := (false, true)) (by decide +kernel)
  obtain ⟨ci', hci', hbehind⟩ := getCi_of_sampleFold
    (s := afterPass (samplePass "a" [] 2) cutLogStore)
    (f := fun ci => ci.status.pyEq (.str CIStatus.retired.value)) (x := false) (by
      have hcore : ((afterPass (samplePass "a" [] 2) cutLogStore).dir.ciDir "ci-x").core =
          some (encodeUtf8 ((Json.obj loggedCore).dumps zeroFloats .compact)) := by decide +kernel
      rw [sampleFold, getCi_of_noEvents hcore coreValue_loggedCore readEvents_cutLog]
      decide +kernel)
  obtain ⟨habsent, hretired⟩ := Prod.mk.inj hbefore
  refine ⟨strictMono_unary, by decide +kernel, ⟨ci, hci,
    Option.isNone_iff_eq_none.mp (Option.isSome_eq_false_iff.mp habsent)⟩, .start, actions, _, hrun,
    fun hrule => ?_⟩
  have hstays := hrule.stays ci ci' hci hci' ((Json.pyEq_str_right_iff _ _).mp hretired)
  rw [hstays, Json.pyEq_refl] at hbehind
  cases hbehind

end SkCoord.Cmdb
