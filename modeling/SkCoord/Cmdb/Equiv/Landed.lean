import SkCoord.Cmdb.Equiv.Growth

/-!
# An event behind a finished log

`run_append_lands`: an append to a log that ends in a finished line adds its event to the item and
nothing else.  An attribute and the status of a fold are those of the last event that sets them
(`attribute_getCi`), and an event newer than all others is the last (`lastSet_insert_top`).
-/

namespace SkCoord.Cmdb

open Python Python.Effect

variable {env : Env} {F : FloatText} {key ciId : String} {ci ci' : ConfigItem} {e : Dict}

/-! ### Views of an item -/

/-- The value of an attribute, if it is bound. -/
def ConfigItem.attribute (key : String) (ci : ConfigItem) : Option Json :=
  (ci.attributes.find? fun p => p.1.pyEq (.str key)).map Prod.snd

/-- The event sets the attribute. -/
def setsAttribute (key : String) (e : Dict) : Bool :=
  (ConfigItem.Action.of e == .setAttribute) && (e.get "key").pyEq (.str key)

/-- The event sets the status. -/
def setsStatus (e : Dict) : Bool :=
  (ConfigItem.Action.of e == .status) && (Assoc.get? e "status").isSome

/-- What `d[k] = v` binds a text to. -/
theorem find?_setItem (k v : Json) : ∀ l : List (Json × Json),
    ((setItem k v l).find? fun p => p.1.pyEq (.str key)).map Prod.snd =
      if k.pyEq (.str key) then some v
      else (l.find? fun p => p.1.pyEq (.str key)).map Prod.snd
  | [] => by
    rw [setItem, List.find?_cons]
    cases k.pyEq (.str key) <;> rfl
  | (k', w) :: l => by
    have ih := find?_setItem k v l
    by_cases hk : k = .str key
    · subst hk
      rw [if_pos (Json.pyEq_refl _)] at ih ⊢
      rw [setItem]
      split
      · rename_i hsame
        rw [List.find?_cons, hsame]
        rfl
      · rename_i hother
        rw [List.find?_cons, Bool.eq_false_iff.mpr hother]
        exact ih
    · have hfalse : k.pyEq (.str key) = false :=
        Bool.eq_false_iff.mpr fun h => hk ((Json.pyEq_str_right_iff _ _).mp h)
      rw [if_neg (Bool.eq_false_iff.mp hfalse)] at ih ⊢
      rw [setItem]
      split
      · -- the entry that is replaced is not that of the text
        rename_i hsame
        have hother : k'.pyEq (.str key) = false := by
          refine Bool.eq_false_iff.mpr fun h => hk ?_
          rw [(Json.pyEq_str_right_iff _ _).mp h, Json.pyEq_str_iff] at hsame
          exact hsame
        rw [List.find?_cons, List.find?_cons, hother]
      · rw [List.find?_cons, List.find?_cons]
        split
        · rfl
        · exact ih

/-- What a turn does to the attributes and the status. -/
theorem attributes_status_step (h : ConfigItem.step env ci e = .ok ci') :
    (ConfigItem.Action.of e = .setAttribute ∧ ci'.status = ci.status ∧
        ∃ ci₁, ci.foldAttribute e = .ok ci₁ ∧ ci'.attributes = ci₁.attributes) ∨
      (ConfigItem.Action.of e = .status ∧ ci'.attributes = ci.attributes ∧
        ci'.status = e.getD "status" ci.status) ∨
      (ConfigItem.Action.of e ≠ .setAttribute ∧ ConfigItem.Action.of e ≠ .status ∧
        ci'.attributes = ci.attributes ∧ ci'.status = ci.status) := by
  obtain ⟨ci₁, h, htouch⟩ := bind_eq_ok.mp h
  rw [← pure_eq_ok.mp htouch]
  cases haction : ConfigItem.Action.of e with
  | setAttribute =>
    rw [haction] at h
    refine .inl ⟨rfl, ?_, ci₁, h, rfl⟩
    change ci.foldAttribute e = .ok ci₁ at h
    unfold ConfigItem.foldAttribute at h
    split at h
    · obtain ⟨-, -, h⟩ := bind_eq_ok.mp h
      rw [← pure_eq_ok.mp h]
      rfl
    · rw [← pure_eq_ok.mp h]
      rfl
  | status =>
    rw [haction] at h
    exact .inr (.inl ⟨rfl, by rw [← pure_eq_ok.mp h]; rfl, by rw [← pure_eq_ok.mp h]; rfl⟩)
  -- the other actions write neither field
  | relate =>
    rw [haction] at h
    obtain ⟨rel, -, h⟩ := bind_eq_ok.mp h
    refine .inr (.inr ⟨by decide, by decide, ?_⟩)
    rw [← pure_eq_ok.mp h]
    split <;> exact ⟨rfl, rfl⟩
  | unrelate =>
    rw [haction] at h
    exact .inr (.inr ⟨by decide, by decide, by rw [← pure_eq_ok.mp h]; exact ⟨rfl, rfl⟩⟩)
  | metadata =>
    rw [haction] at h
    refine .inr (.inr ⟨by decide, by decide, ?_⟩)
    obtain ⟨-, -, h⟩ := bind_eq_ok.mp h
    split at h
    · rw [← pure_eq_ok.mp h]
      unfold ConfigItem.setMetadata
      split <;> exact ⟨rfl, rfl⟩
    · rw [← pure_eq_ok.mp h]
      exact ⟨rfl, rfl⟩
  | tag =>
    rw [haction] at h
    refine .inr (.inr ⟨by decide, by decide, ?_⟩)
    rw [← pure_eq_ok.mp h]
    unfold ConfigItem.foldTag
    split <;> exact ⟨rfl, rfl⟩
  | untag =>
    rw [haction] at h
    refine .inr (.inr ⟨by decide, by decide, ?_⟩)
    rw [← pure_eq_ok.mp h]
    unfold ConfigItem.foldUntag
    dsimp only
    split
    · split <;> exact ⟨rfl, rfl⟩
    · exact ⟨rfl, rfl⟩
  | other =>
    rw [haction] at h
    exact .inr (.inr ⟨by decide, by decide, by rw [← pure_eq_ok.mp h]; exact ⟨rfl, rfl⟩⟩)

/-- **One turn** sets the attribute that its event sets. -/
theorem attribute_step (hkey : key ≠ "") (h : ConfigItem.step env ci e = .ok ci') :
    ci'.attribute key = if setsAttribute key e then some (e.get "value") else ci.attribute key := by
  rcases attributes_status_step h with ⟨haction, -, ci₁, hfold, hattributes⟩ |
    ⟨haction, hattributes, -⟩ | ⟨haction, -, hattributes, -⟩
  · unfold setsAttribute ConfigItem.attribute
    rw [haction, hattributes, beq_self_eq_true, Bool.true_and]
    unfold ConfigItem.foldAttribute at hfold
    split at hfold
    · obtain ⟨-, -, hfold⟩ := bind_eq_ok.mp hfold
      rw [← pure_eq_ok.mp hfold]
      exact find?_setItem _ _ _
    · -- a key that is not true is not the text
      rename_i hfalse
      have hne : (e.get "key").pyEq (.str key) = false := by
        refine Bool.eq_false_iff.mpr fun heq => hfalse ?_
        rw [(Json.pyEq_str_right_iff _ _).mp heq]
        exact (Json.truthy_str key).mpr hkey
      rw [← pure_eq_ok.mp hfold, hne]
      rfl
  · unfold setsAttribute ConfigItem.attribute
    rw [haction, hattributes]
    rfl
  · unfold setsAttribute ConfigItem.attribute
    rw [beq_eq_false_iff_ne.mpr haction, hattributes]
    rfl

/-- One turn sets the status that its event has. -/
theorem status_step (h : ConfigItem.step env ci e = .ok ci') :
    ci'.status = if setsStatus e then e.get "status" else ci.status := by
  rcases attributes_status_step h with ⟨haction, hstatus, -⟩ | ⟨haction, -, hstatus⟩ |
    ⟨-, haction, -, hstatus⟩
  · unfold setsStatus
    rw [haction, hstatus]
    rfl
  · unfold setsStatus
    rw [haction, hstatus, Dict.getD, Dict.get, beq_self_eq_true, Bool.true_and]
    cases Assoc.get? e "status" <;> rfl
  · unfold setsStatus
    rw [beq_eq_false_iff_ne.mpr haction, hstatus]
    rfl

/-! ### Appends behind a finished line -/

/-- The log of an agent ends in a finished line, or in a blank one. -/
def CmdbDir.LogClosed (env : Env) (dir : CmdbDir) (ciId agent : String) : Prop :=
  ∀ text, decodeUtf8 (dir.log ciId (writerFile env agent)) = some text → Closed text

/-- An event of one item has landed, and nothing was lost. -/
structure Lands (env : Env) (ciId agent : String) (e : Dict) (s s' : Manager) : Prop where
  ticks : s'.ticks = s.ticks + 1
  core : (s'.dir.ciDir ciId).core = (s.dir.ciDir ciId).core
  elsewhere : ∀ x, x ≠ ciId → s'.dir.ciDir x = s.dir.ciDir x
  events : ∃ l m, (s.dir.ciDir ciId).events env.floats = l ++ m ∧
    (s'.dir.ciDir ciId).events env.floats = l ++ e :: m
  closed : s'.dir.LogClosed env ciId agent

/-- What an append leaves, wherever it is written. -/
theorem run_append_eq_ok {agent action : String} {payload : Dict} {s s' : Manager} {u : Unit}
    (h : (append env ciId agent action payload).run s = (.ok u, s')) :
    ∃ text seq, decodeUtf8 (s.dir.log ciId (writerFile env agent)) = some text ∧
      s' = ⟨s.dir.setLog ciId (writerFile env agent)
        (withLine env.floats (s.dir.log ciId (writerFile env agent))
          (newEvent env seq agent action (env.now s.ticks) payload)), s.ticks + 1⟩ := by
  unfold append at h
  rw [run_get_bind] at h
  obtain ⟨text, htext, h⟩ := run_lift_bind_eq_ok.mp h
  cases h
  exact ⟨text, _, readText_eq_ok.mp htext, rfl⟩

/-- **An append behind a finished line** lands. -/
theorem run_append_lands {agent action : String} {payload : Dict} {s s' : Manager} {u : Unit}
    (hclosed : s.dir.LogClosed env ciId agent)
    (h : (append env ciId agent action payload).run s = (.ok u, s')) :
    ∃ seq, Lands env ciId agent (rereadEvent env.floats
      (newEvent env seq agent action (env.now s.ticks) payload)) s s' := by
  obtain ⟨text, seq, hdecode, rfl⟩ := run_append_eq_ok h
  set file := writerFile env agent with hfile
  set e := newEvent env seq agent action (env.now s.ticks) payload with he
  have hdir : CmdbDir.ciDir (s.dir.setLog ciId file (withLine env.floats (s.dir.log ciId file) e))
      ciId = (s.dir.ciDir ciId).setLog file (withLine env.floats (s.dir.log ciId file) e) := by
    rw [CmdbDir.setLog, ciDir_set, if_pos rfl]
  refine ⟨seq, rfl, by rw [hdir]; rfl, fun x hx => ?_, ?_, fun text' htext' => ?_⟩
  · show CmdbDir.ciDir (CmdbDir.setLog _ _ _ _) x = _
    rw [CmdbDir.setLog, ciDir_set, if_neg hx]
  · obtain ⟨l, m, hold, hnew⟩ := events_setLog (F := env.floats) (s.dir.ciDir ciId)
      (endsWith_writerFile env agent) (withLine env.floats (s.dir.log ciId file) e)
    have hland := contentEvents_appends (F := env.floats) (w := e)
      (List.forall_mem_singleton.mpr stamped_newEvent) hdecode
    refine ⟨l ++ contentEvents env.floats (s.dir.log ciId file), m, hold, ?_⟩
    rw [hdir, hnew]
    have hcontent : contentEvents env.floats (withLine env.floats (s.dir.log ciId file) e) =
        contentEvents env.floats (s.dir.log ciId file) ++ [rereadEvent env.floats e] := by
      refine hland.trans ?_
      rw [landed, if_pos (hclosed text hdecode), contentEvents_of_decode hdecode,
        eventsOfText_unfinished (hclosed text hdecode), List.append_nil]
      rfl
    rw [hcontent, List.append_assoc, List.append_assoc, List.append_assoc]
    rfl
  · have hlog : CmdbDir.log (s.dir.setLog ciId file
        (withLine env.floats (s.dir.log ciId file) e)) ciId file =
        withLine env.floats (s.dir.log ciId file) e := by
      rw [log_eq, hdir, CiDir.log]
      show (Assoc.get? (Assoc.set _ _ _) _).getD [] = _
      rw [Assoc.get?_set_self]
      rfl
    rw [hlog, withLine, decodeUtf8_append hdecode] at htext'
    rw [← Option.some.inj htext']
    exact closed_lineOf text e

/-! ### The last event that sets a view -/

/-- The event that decides a view. -/
def lastSet (sets : Dict → Bool) (events : List Dict) : Option Dict :=
  latest (fun a b => eventKey a ≤ eventKey b) (events.filter sets)

section

variable {sets : Dict → Bool} {l m : List Dict}

theorem lastSet_insert_of_not (h : sets e = false) :
    lastSet sets (l ++ e :: m) = lastSet sets (l ++ m) := by
  unfold lastSet
  rw [List.filter_append, List.filter_append, List.filter_cons_of_neg (Bool.eq_false_iff.mp h)]

/-- An event that is later than all others decides. -/
theorem lastSet_insert_top (h : sets e = true)
    (hlater : ∀ x ∈ l ++ m, sets x = true → ¬eventKey e ≤ eventKey x) :
    lastSet sets (l ++ e :: m) = some e := by
  unfold lastSet
  rw [List.filter_append, List.filter_cons_of_pos h]
  refine latest_insert_top _ (fun x hx => ?_) fun x hx => ?_
  · obtain ⟨hx, hsets⟩ := List.mem_filter.mp hx
    exact le_of_not_ge (hlater x (List.mem_append_left _ hx) hsets)
  · obtain ⟨hx, hsets⟩ := List.mem_filter.mp hx
    exact hlater x (List.mem_append_right _ hx) hsets

/-- One more event decides, or the one that decided before. -/
theorem lastSet_insert {a : Dict} (h : lastSet sets (l ++ m) = some a) :
    ∃ b, lastSet sets (l ++ e :: m) = some b ∧ (b = a ∨ b = e) := by
  unfold lastSet at h ⊢
  cases hsets : sets e with
  | false =>
    rw [List.filter_append, List.filter_cons_of_neg (Bool.eq_false_iff.mp hsets),
      ← List.filter_append]
    exact ⟨a, h, .inl rfl⟩
  | true =>
    rw [List.filter_append] at h
    rw [List.filter_append, List.filter_cons_of_pos hsets]
    obtain ⟨b, hb, hcases⟩ := latest_insert _ [e] h
    refine ⟨b, ?_, hcases.imp_right List.mem_singleton.mp⟩
    rwa [List.append_assoc] at hb

end

/-- The attribute of an item is the value of the last event that sets it. -/
theorem attribute_getCi {dir : CmdbDir} (hkey : key ≠ "")
    (hci : dir.getCi env ciId = .ok (some ci)) :
    ∃ content core ci₀, (dir.ciDir ciId).core = some content ∧
      CmdbDir.coreValue env content = some core ∧ ConfigItem.ofCore env ciId core = .ok ci₀ ∧
      ci.attribute key = ((lastSet (setsAttribute key) ((dir.ciDir ciId).events env.floats)).map
        fun e => some (e.get "value")).getD (ci₀.attribute key) :=
  view_getCi (attribute_step hkey) hci

end SkCoord.Cmdb
