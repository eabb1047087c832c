import SkCoord.Cmdb.Equiv.Events

/-!
# Relationships of folded items

The last event on a relationship decides whether the folded item has it (`hasEdge_getCi`), so an
append adds at most the relationship that it writes (`edge_of_appends`).
-/

namespace SkCoord.Cmdb

open Python

variable {env : Env} {F : FloatText} {relType target : String}

/-! ### Events on a relationship -/

/-- The event adds the relationship. -/
def relates (relType target : String) (e : Dict) : Bool :=
  (ConfigItem.Action.of e == .relate) && (e.getD "rel_type" (.str "depends_on")).pyEq (.str relType) &&
    (e.getD "target" (.str "")).pyEq (.str target)

/-- The event removes the relationship. -/
def unrelates (relType target : String) (e : Dict) : Bool :=
  (ConfigItem.Action.of e == .unrelate) && (Json.str relType).pyEq (e.get "rel_type") &&
    (Json.str target).pyEq (e.get "target")

/-- The event adds the relationship or removes it. -/
def touches (relType target : String) (e : Dict) : Bool :=
  relates relType target e || unrelates relType target e

/-- The item has the relationship. -/
def hasEdge (relType target : String) (ci : ConfigItem) : Bool :=
  ci.relationships.any fun r => r.links relType target

/-- The events leave the relationship, when they are folded in order. -/
def edgeIn (relType target : String) (events : List Dict) : Bool :=
  ((latest (fun a b => eventKey a ≤ eventKey b) (events.filter (touches relType target))).map
    (relates relType target)).getD false

theorem edgeIn_iff {events : List Dict} : edgeIn relType target events = true ↔
    ∃ e, latest (fun a b => eventKey a ≤ eventKey b) (events.filter (touches relType target)) =
      some e ∧ relates relType target e = true := by
  rw [edgeIn]
  cases latest (fun a b => eventKey a ≤ eventKey b) (events.filter (touches relType target)) with
  | none => exact ⟨nofun, nofun⟩
  | some e => exact ⟨fun h => ⟨e, rfl, h⟩, fun ⟨_, he, h⟩ => Option.some.inj he ▸ h⟩

theorem links_iff {r : Relationship} : r.links relType target = true ↔
    r.relType = relType ∧ r.target = target := by
  rw [Relationship.links, Bool.and_eq_true, beq_iff_eq, beq_iff_eq]

theorem textField_eq_ok {x : Json} {s : String} (h : textField x = .ok s) : x = .str s := by
  cases x with
  | str t => rw [Except.ok.inj h]
  | _ => cases h

theorem relates_of_action {e : Dict} (h : ConfigItem.Action.of e ≠ .relate) :
    relates relType target e = false := by
  rw [relates, beq_eq_false_iff_ne.mpr h, Bool.false_and, Bool.false_and]

theorem unrelates_of_action {e : Dict} (h : ConfigItem.Action.of e ≠ .unrelate) :
    unrelates relType target e = false := by
  rw [unrelates, beq_eq_false_iff_ne.mpr h, Bool.false_and, Bool.false_and]

/-! ### The fold -/

theorem hasEdge_foldRelate {ci ci' : ConfigItem} {e : Dict} (htarget : target ≠ "")
    (haction : ConfigItem.Action.of e = .relate) (h : ci.foldRelate e = .ok ci') :
    hasEdge relType target ci' = (relates relType target e || hasEdge relType target ci) := by
  obtain ⟨rel, hrel, h⟩ := bind_eq_ok.mp h
  obtain ⟨rt, hrt, hrel⟩ := bind_eq_ok.mp hrel
  obtain ⟨t, ht, hrel⟩ := bind_eq_ok.mp hrel
  obtain ⟨authority, -, hrel⟩ := bind_eq_ok.mp hrel
  cases pure_eq_ok.mp hrel
  have hrelates : relates relType target e = (rt == relType && t == target) := by
    rw [relates, haction, textField_eq_ok hrt, textField_eq_ok ht]
    rfl
  rw [hrelates, ← pure_eq_ok.mp h]
  by_cases hempty : t = ""
  · -- an empty target is no relationship
    have hne : (t == target) = false := beq_eq_false_iff_ne.mpr (hempty ▸ htarget.symm)
    rw [if_pos hempty, hne, Bool.and_false, Bool.false_or]
  · rw [if_neg hempty, hasEdge, hasEdge, List.any_append, List.any_filter, List.any_cons,
      List.any_nil, Bool.or_false, Bool.or_comm]
    by_cases hlinks : rt = relType ∧ t = target
    · obtain ⟨rfl, rfl⟩ := hlinks
      rw [Relationship.links, beq_self_eq_true, beq_self_eq_true]
      rfl
    · have hnot : (rt == relType && t == target) = false := by
        rw [Bool.and_eq_false_iff, beq_eq_false_iff_ne, beq_eq_false_iff_ne]
        exact not_and_or.mp hlinks
      rw [Relationship.links, hnot, Bool.false_or, Bool.false_or]
      refine List.any_congr rfl fun r => ?_
      by_cases hr : r.links relType target = true
      · obtain ⟨h1, h2⟩ := links_iff.mp hr
        have hother : r.links rt t = false := by
          rw [Bool.eq_false_iff]
          intro hsame
          obtain ⟨h3, h4⟩ := links_iff.mp hsame
          exact hlinks ⟨h3.symm.trans h1, h4.symm.trans h2⟩
        rw [hr, hother]
        rfl
      · rw [Bool.eq_false_iff.mpr hr, Bool.and_false]

theorem hasEdge_foldUnrelate {ci : ConfigItem} {e : Dict}
    (haction : ConfigItem.Action.of e = .unrelate) :
    hasEdge relType target (ci.foldUnrelate e) =
      (!unrelates relType target e && hasEdge relType target ci) := by
  have hunrelates : unrelates relType target e = ((Json.str relType).pyEq (e.get "rel_type") &&
      (Json.str target).pyEq (e.get "target")) := by
    rw [unrelates, haction]
    rfl
  have heach : ∀ r : Relationship, (!((Json.str r.relType).pyEq (e.get "rel_type") &&
      (Json.str r.target).pyEq (e.get "target")) && r.links relType target) =
        (!unrelates relType target e && r.links relType target) := by
    intro r
    by_cases hr : r.links relType target = true
    · obtain ⟨h1, h2⟩ := links_iff.mp hr
      rw [hunrelates, h1, h2]
    · rw [Bool.eq_false_iff.mpr hr, Bool.and_false, Bool.and_false]
  rw [hasEdge, hasEdge, ConfigItem.foldUnrelate, List.any_filter, List.any_congr rfl heach]
  cases unrelates relType target e with
  | true => exact List.any_eq_false.mpr fun r _ => Bool.false_ne_true
  | false => rfl

theorem relationships_setMetadata (ci : ConfigItem) (key text : String) :
    (ci.setMetadata key text).relationships = ci.relationships := by
  unfold ConfigItem.setMetadata
  split <;> rfl

/-- What a turn does to the relationships. -/
theorem relationships_step {ci ci' : ConfigItem} {e : Dict}
    (h : ConfigItem.step env ci e = .ok ci') :
    (ConfigItem.Action.of e = .relate ∧
        ∃ ci₁, ci.foldRelate e = .ok ci₁ ∧ ci'.relationships = ci₁.relationships) ∨
      (ConfigItem.Action.of e = .unrelate ∧
        ci'.relationships = (ci.foldUnrelate e).relationships) ∨
      (ConfigItem.Action.of e ≠ .relate ∧ ConfigItem.Action.of e ≠ .unrelate ∧
        ci'.relationships = ci.relationships) := by
  obtain ⟨ci₁, h, htouch⟩ := bind_eq_ok.mp h
  rw [← pure_eq_ok.mp htouch]
  cases haction : ConfigItem.Action.of e with
  | relate =>
    rw [haction] at h
    exact .inl ⟨rfl, ci₁, h, rfl⟩
  | unrelate =>
    rw [haction] at h
    exact .inr (.inl ⟨rfl, by rw [← pure_eq_ok.mp h]; rfl⟩)
  -- the other actions write other fields
  | status =>
    rw [haction] at h
    exact .inr (.inr ⟨by decide, by decide, by rw [← pure_eq_ok.mp h]; rfl⟩)
  | setAttribute =>
    rw [haction] at h
    refine .inr (.inr ⟨by decide, by decide, ?_⟩)
    unfold ConfigItem.foldAction ConfigItem.foldAttribute at h
    dsimp only at h
    split at h
    · obtain ⟨-, -, h⟩ := bind_eq_ok.mp h
      rw [← pure_eq_ok.mp h]
      rfl
    · rw [← pure_eq_ok.mp h]
      rfl
  | metadata =>
    rw [haction] at h
    refine .inr (.inr ⟨by decide, by decide, ?_⟩)
    obtain ⟨-, -, h⟩ := bind_eq_ok.mp h
    split at h
    · rw [← pure_eq_ok.mp h]
      exact relationships_setMetadata _ _ _
    · rw [← pure_eq_ok.mp h]
      rfl
  | tag =>
    rw [haction] at h
    refine .inr (.inr ⟨by decide, by decide, ?_⟩)
    rw [← pure_eq_ok.mp h]
    show (ci.foldTag env e).relationships = _
    unfold ConfigItem.foldTag
    split <;> rfl
  | untag =>
    rw [haction] at h
    refine .inr (.inr ⟨by decide, by decide, ?_⟩)
    rw [← pure_eq_ok.mp h]
    show (ci.foldUntag env e).relationships = _
    unfold ConfigItem.foldUntag
    dsimp only
    split
    · split <;> rfl
    · rfl
  | other =>
    rw [haction] at h
    exact .inr (.inr ⟨by decide, by decide, by rw [← pure_eq_ok.mp h]; rfl⟩)

/-- **One turn** sets the relationships that its event touches. -/
theorem hasEdge_step {ci ci' : ConfigItem} {e : Dict} (htarget : target ≠ "")
    (h : ConfigItem.step env ci e = .ok ci') :
    hasEdge relType target ci' =
      if touches relType target e then relates relType target e else hasEdge relType target ci := by
  rcases relationships_step h with ⟨haction, ci₁, hrelate, hrels⟩ | ⟨haction, hrels⟩ |
    ⟨hrelate, hunrelate, hrels⟩
  · have hne : ConfigItem.Action.of e ≠ .unrelate := by
      rw [haction]
      nofun
    rw [hasEdge, hrels, ← hasEdge, hasEdge_foldRelate htarget haction hrelate, touches,
      unrelates_of_action hne, Bool.or_false]
    cases relates relType target e <;> rfl
  · have hne : ConfigItem.Action.of e ≠ .relate := by
      rw [haction]
      nofun
    rw [hasEdge, hrels, ← hasEdge, hasEdge_foldUnrelate haction, touches, relates_of_action hne,
      Bool.false_or]
    cases unrelates relType target e <;> rfl
  · rw [touches, relates_of_action hrelate, unrelates_of_action hunrelate, hasEdge, hrels]
    rfl

/-- A turn makes no relationship with an empty target. -/
theorem target_ne_step {ci ci' : ConfigItem} {e : Dict}
    (hci : ∀ r ∈ ci.relationships, r.target ≠ "") (h : ConfigItem.step env ci e = .ok ci') :
    ∀ r ∈ ci'.relationships, r.target ≠ "" := by
  rcases relationships_step h with ⟨-, ci₁, hrelate, hrels⟩ | ⟨-, hrels⟩ | ⟨-, -, hrels⟩
  · rw [hrels]
    obtain ⟨rel, -, hrelate⟩ := bind_eq_ok.mp hrelate
    rw [← pure_eq_ok.mp hrelate]
    split
    · exact hci
    · rename_i hne
      intro r hr
      rcases List.mem_append.mp hr with hr | hr
      · exact hci r (List.mem_of_mem_filter hr)
      · rw [List.mem_singleton.mp hr]
        exact hne
  · rw [hrels]
    exact fun r hr => hci r (List.mem_of_mem_filter hr)
  · rw [hrels]
    exact hci

/-- **A view of the fold**: the last event that sets it decides. -/
theorem view_fold {ω : Type*} {view : ConfigItem → ω} {sets : Dict → Bool} {val : Dict → ω}
    (hstep : ∀ {ci e ci'}, ConfigItem.step env ci e = .ok ci' →
      view ci' = if sets e then val e else view ci)
    {ci ci' : ConfigItem} {events : List Dict}
    (h : events.foldlM (ConfigItem.step env) ci = .ok ci') :
    view ci' = (((events.filter sets).getLast?).map val).getD (view ci) := by
  have hpure := foldlM_project view (fun x e => if sets e then val e else x)
    (fun ci e ci' h => hstep h) events ci ci' h
  have hlast := @foldl_last Dict ω ω (fun x e => if sets e then val e else x) some sets val
    (fun x e => by split <;> rfl) events (view ci)
  rw [← hpure] at hlast
  cases hget : (events.filter sets).getLast? with
  | none =>
    rw [hget] at hlast
    exact Option.some.inj hlast
  | some e =>
    rw [hget] at hlast
    exact Option.some.inj hlast

/-- What a core says nothing about. -/
theorem defaults_ofCore {ciId : String} {core : Json} {ci : ConfigItem}
    (h : ConfigItem.ofCore env ciId core = .ok ci) :
    ci.relationships = [] ∧ ci.status = .str CIStatus.operational.value ∧
      ci.tagAuthorities = [] := by
  unfold ConfigItem.ofCore at h
  split at h
  · obtain ⟨version, -, h⟩ := bind_eq_ok.mp h
    obtain ⟨id, -, h⟩ := bind_eq_ok.mp h
    obtain ⟨attributes, -, h⟩ := bind_eq_ok.mp h
    obtain ⟨tags, -, h⟩ := bind_eq_ok.mp h
    obtain ⟨idText, -, h⟩ := bind_eq_ok.mp h
    obtain ⟨ciType, -, h⟩ := bind_eq_ok.mp h
    obtain ⟨name, -, h⟩ := bind_eq_ok.mp h
    obtain ⟨description, -, h⟩ := bind_eq_ok.mp h
    obtain ⟨owner, -, h⟩ := bind_eq_ok.mp h
    obtain ⟨node, -, h⟩ := bind_eq_ok.mp h
    obtain ⟨createdAt, -, h⟩ := bind_eq_ok.mp h
    rw [← pure_eq_ok.mp h]
    exact ⟨rfl, rfl, rfl⟩
  · cases h

/-- What `get_ci` returns is the fold of the events of the directory. -/
theorem getCi_eq_ok {dir : CmdbDir} {ciId : String} {ci : ConfigItem}
    (h : dir.getCi env ciId = .ok (some ci)) :
    ∃ content core ci₀, (dir.ciDir ciId).core = some content ∧
      CmdbDir.coreValue env content = some core ∧ ConfigItem.ofCore env ciId core = .ok ci₀ ∧
      (((dir.ciDir ciId).events env.floats).insertionSort fun a b =>
        eventKey a ≤ eventKey b).foldlM (ConfigItem.step env) ci₀ = .ok ci := by
  unfold CmdbDir.getCi at h
  split at h
  · cases h
  · rename_i content hcontent
    split at h
    · cases h
    · rename_i core hcore
      obtain ⟨ci₀, hci₀, h⟩ := bind_eq_ok.mp h
      obtain ⟨events, hevents, h⟩ := bind_eq_ok.mp h
      obtain ⟨ci', hci', h⟩ := bind_eq_ok.mp h
      cases pure_eq_ok.mp h
      rw [readEvents_eq_ok hevents] at hci'
      exact ⟨content, core, ci₀, hcontent, hcore, hci₀, hci'⟩

/-- A view of an item is what the latest event that sets it says. -/
theorem view_getCi {ω : Type*} {view : ConfigItem → ω} {sets : Dict → Bool} {val : Dict → ω}
    (hstep : ∀ {ci e ci'}, ConfigItem.step env ci e = .ok ci' →
      view ci' = if sets e then val e else view ci)
    {dir : CmdbDir} {ciId : String} {ci : ConfigItem} (h : dir.getCi env ciId = .ok (some ci)) :
    ∃ content core ci₀, (dir.ciDir ciId).core = some content ∧
      CmdbDir.coreValue env content = some core ∧ ConfigItem.ofCore env ciId core = .ok ci₀ ∧
      view ci = ((latest (fun a b => eventKey a ≤ eventKey b)
        (((dir.ciDir ciId).events env.floats).filter sets)).map val).getD (view ci₀) := by
  obtain ⟨content, core, ci₀, hcontent, hcore, hci₀, hfold⟩ := getCi_eq_ok h
  refine ⟨content, core, ci₀, hcontent, hcore, hci₀, ?_⟩
  rw [view_fold hstep hfold, getLast?_filter_insertionSort]

/-- **The edges of an item** are those that the events of its directory leave. -/
theorem hasEdge_getCi {dir : CmdbDir} {ciId : String} {ci : ConfigItem} (htarget : target ≠ "")
    (h : dir.getCi env ciId = .ok (some ci)) :
    hasEdge relType target ci = edgeIn relType target ((dir.ciDir ciId).events env.floats) := by
  obtain ⟨content, core, ci₀, -, -, hci₀, hview⟩ := view_getCi (hasEdge_step htarget) h
  have hnone : hasEdge relType target ci₀ = false := by
    rw [hasEdge, (defaults_ofCore hci₀).1]
    rfl
  rw [hview, hnone, edgeIn]

/-- No relationship has an empty target. -/
theorem target_ne_of_getCi {dir : CmdbDir} {ciId : String} {ci : ConfigItem}
    (h : dir.getCi env ciId = .ok (some ci)) : ∀ r ∈ ci.relationships, r.target ≠ "" := by
  obtain ⟨content, core, ci₀, -, -, hci₀, hfold⟩ := getCi_eq_ok h
  refine foldlM_invariant (I := fun ci => ∀ r ∈ ci.relationships, r.target ≠ "")
    (fun ci e ci' hci h => target_ne_step hci h) _ ci₀ ci ?_ hfold
  rw [(defaults_ofCore hci₀).1]
  exact fun r hr => (List.not_mem_nil hr).elim

/-! ### Appends -/

/-- The directory with the unfinished last line of a log cut off. -/
def CiDir.cut (d : CiDir) (file : String) : CiDir :=
  d.setLog file (encodeUtf8 (finished ((decodeUtf8 (d.log file)).getD [])))

/-- The events on the unfinished last line of a log, which the next append spoils. -/
def CiDir.unfinishedEvents (F : FloatText) (d : CiDir) (file : String) : List Dict :=
  eventsOfText F (unfinished ((decodeUtf8 (d.log file)).getD []))

theorem contentEvents_encode (text : List Char) :
    contentEvents F (encodeUtf8 text) = eventsOfText F text := by
  rw [contentEvents, decodeUtf8_encodeUtf8]
  rfl

/-- A cut shows the relationships that the unfinished line removes at most. -/
theorem edge_of_cut {d : CiDir} {file : String} (hfile : endsWith file ".jsonl" = true)
    (hopen : ∀ e ∈ d.unfinishedEvents F file, unrelates relType target e = false)
    (h : edgeIn relType target ((d.cut file).events F) = true) :
    edgeIn relType target (d.events F) = true := by
  obtain ⟨l, m, hold, hcut⟩ := events_setLog (F := F) d hfile
    (encodeUtf8 (finished ((decodeUtf8 (d.log file)).getD [])))
  rw [CiDir.cut, hcut, contentEvents_encode, edgeIn_iff, List.filter_append, List.filter_append] at h
  rw [hold, contentEvents, eventsOfText_finished, ← List.append_assoc, edgeIn_iff,
    List.filter_append, List.filter_append, List.filter_append]
  obtain ⟨e, hlatest, hrelates⟩ := h
  obtain ⟨b, hb, hcases⟩ := latest_insert _ ((d.unfinishedEvents F file).filter
    (touches relType target)) hlatest
  refine ⟨b, hb, ?_⟩
  rcases hcases with rfl | hmem
  · exact hrelates
  · obtain ⟨hmem, htouches⟩ := List.mem_filter.mp hmem
    rwa [touches, hopen b hmem, Bool.or_false] at htouches

/-- Another content of a log does not depend on the old one. -/
theorem setLog_cut (d : CiDir) (file : String) (content : Bytes) :
    (d.cut file).setLog file content = d.setLog file content := by
  unfold CiDir.cut CiDir.setLog
  simp only [Assoc.set_set]

theorem log_cut (d : CiDir) (file : String) :
    (d.cut file).log file = encodeUtf8 (finished ((decodeUtf8 (d.log file)).getD [])) := by
  unfold CiDir.cut CiDir.setLog
  rw [CiDir.log, Assoc.get?_set_self]
  rfl

/-- **Appends to one log** add the relationships that they write to those that are left without the
unfinished line. -/
theorem edge_of_appends {d : CiDir} {file : String} (hfile : endsWith file ".jsonl" = true)
    {text : List Char} (hdecode : decodeUtf8 (d.log file) = some text) {w : Dict} {ws : List Dict}
    (hws : ∀ e ∈ w :: ws, Stamped e)
    (h : edgeIn relType target
      ((d.setLog file ((w :: ws).foldl (withLine F) (d.log file))).events F) = true) :
    edgeIn relType target ((d.cut file).events F) = true ∨
      ∃ e ∈ w :: ws, relates relType target (rereadEvent F e) = true := by
  obtain ⟨l, m, hcut, hnew⟩ := events_setLog (F := F) (d.cut file) hfile
    ((w :: ws).foldl (withLine F) (d.log file))
  rw [setLog_cut] at hnew
  rw [hnew, contentEvents_appends hws hdecode, ← List.append_assoc, edgeIn_iff,
    List.filter_append, List.filter_append] at h
  rw [hcut, log_cut, contentEvents_encode, hdecode, Option.getD_some, edgeIn_iff,
    List.filter_append]
  obtain ⟨e, hlatest, hrelates⟩ := h
  by_cases he : e ∈ ((landed text (w :: ws)).map (rereadEvent F)).filter (touches relType target)
  · obtain ⟨v, hv, rfl⟩ := List.mem_map.mp (List.mem_of_mem_filter he)
    exact .inr ⟨v, landed_subset hv, hrelates⟩
  · -- no new line says anything later of the relationship
    exact .inl ⟨e, latest_of_insert _ hlatest he, hrelates⟩

end SkCoord.Cmdb
