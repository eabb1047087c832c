import SkCoord.Coordination.Equiv.InStep
import SkCoord.Coordination.Equiv.Placing
import SkCoord.Coordination.Parity

/-!
# What a reconciliation writes

A reconciliation appends to the cards of the mismatches that it does not skip and to no others
(`reconcileLoop_keeps`), and it reports the cards it skips (`reconcileLoop_skipped`).  A card that is
done in the store and not on the legacy board is skipped exactly when its legacy status is known, so
the others can be written to (`reconcile_spares_done_iff`).
-/

namespace SkCoord

open Python Effect

variable {env : BoardEnv} {k k' : KanbanHome} {cardId : String}

/-! ### The dictionaries of the comparison -/

theorem keys_cardsById_nodup (cards : List Card) : (Assoc.keys (cardsById cards)).Nodup :=
  (Assoc.foldl_set_key Card.id cards).1

/-- A mismatch is a card of both sides with a gating difference. -/
theorem mismatchOf_eq_some {statusIds : List String} {stored : Assoc String Card} {cardId : String}
    {lc : Card} {m : Mismatch} : mismatchOf statusIds stored (cardId, lc) = some m ↔
      ∃ sc, Assoc.get? stored cardId = some sc ∧ m = ⟨cardId, fieldDiff statusIds cardId lc sc⟩ ∧
        (fieldDiff statusIds cardId lc sc).isEmpty = false := by
  unfold mismatchOf
  cases Assoc.get? stored cardId with
  | none => exact ⟨nofun, nofun⟩
  | some sc =>
    dsimp only
    constructor
    · intro h
      split at h
      · cases h
      · rename_i hne
        exact ⟨sc, rfl, (Option.some.inj h).symm, Bool.eq_false_of_not_eq_true hne⟩
    · rintro ⟨_, h, rfl, hne⟩
      cases h
      rw [hne]
      rfl

/-- The mismatches of a comparison. -/
theorem mem_mismatches {statusIds : List String} {threshold : ℕ} {legacy stored : Assoc String Card}
    (hlegacy : (Assoc.keys legacy).Nodup) {m : Mismatch} :
    m ∈ (compareSides statusIds threshold legacy stored).mismatches ↔
      ∃ lc sc, Assoc.get? legacy m.id = some lc ∧ Assoc.get? stored m.id = some sc ∧
        m.diff = fieldDiff statusIds m.id lc sc ∧ m.diff.isEmpty = false := by
  show m ∈ legacy.filterMap (mismatchOf statusIds stored) ↔ _
  rw [List.mem_filterMap]
  constructor
  · rintro ⟨⟨cardId, lc⟩, hmem, hm⟩
    obtain ⟨sc, hsc, rfl, hne⟩ := mismatchOf_eq_some.mp hm
    exact ⟨lc, sc, Assoc.get?_of_mem hlegacy hmem, hsc, rfl, hne⟩
  · rintro ⟨lc, sc, hlc, hsc, hdiff, hne⟩
    refine ⟨(m.id, lc), Assoc.mem_of_get? hlc, mismatchOf_eq_some.mpr ⟨sc, hsc, ?_, hdiff ▸ hne⟩⟩
    rw [← hdiff]

/-- No card has two mismatches. -/
theorem nodup_mismatches {statusIds : List String} {threshold : ℕ}
    {legacy stored : Assoc String Card} (hlegacy : (Assoc.keys legacy).Nodup) :
    ((compareSides statusIds threshold legacy stored).mismatches.map Mismatch.id).Nodup := by
  have hids : ((legacy.filterMap (mismatchOf statusIds stored)).map Mismatch.id).Sublist
      (Assoc.keys legacy) := by
    unfold Assoc.keys
    rw [List.map_filterMap]
    clear hlegacy
    induction legacy with
    | nil => exact List.Sublist.slnil
    | cons p legacy ih =>
      obtain ⟨cardId, lc⟩ := p
      rw [List.map_cons, List.filterMap_cons]
      cases hm : mismatchOf statusIds stored (cardId, lc) with
      | none => exact ih.cons _
      | some m =>
        obtain ⟨sc, -, rfl, -⟩ := mismatchOf_eq_some.mp hm
        exact ih.cons_cons _
  exact hids.nodup hlegacy

/-! ### The loop -/

/-- The events of a card leave the others, whether they are written or one of them is refused. -/
theorem elsewhere_appendActions (env : BoardEnv) (cardId : String) :
    ∀ (actions : List (String × Dict)) (k : KanbanHome),
      Elsewhere env cardId k ((appendActions env cardId actions).run k).2
  | [], k => .refl env cardId k
  | (action, payload) :: actions, k => by
    have hfirst := elsewhere_append env k cardId action "reconcile" payload
    unfold appendActions
    rw [run_bind]
    cases h : (appendReconcile env cardId action payload).run k with
    | mk r k₁ =>
      rw [show k.onBoard env (appendCardEvent env cardId action "reconcile" payload) = (r, k₁)
        from h] at hfirst
      cases r with
      | error e => exact hfirst
      | ok u => exact hfirst.trans (elsewhere_appendActions env cardId actions k₁)

/-- A home whose files are the same, and one card of it. -/
structure KeepsCard (env : BoardEnv) (cardId : String) (k k' : KanbanHome) : Prop where
  files : k.SameFiles k'
  dir : (k'.store env).dir cardId = (k.store env).dir cardId

theorem KeepsCard.refl (env : BoardEnv) (cardId : String) (k : KanbanHome) :
    KeepsCard env cardId k k := ⟨.refl k, rfl⟩

theorem KeepsCard.trans {k'' : KanbanHome} (h : KeepsCard env cardId k k')
    (h' : KeepsCard env cardId k' k'') : KeepsCard env cardId k k'' :=
  ⟨h.files.trans h'.files, h'.dir.trans h.dir⟩

theorem repair_keeps (env : BoardEnv) (dryRun : Bool) (m : Mismatch) (k : KanbanHome)
    (hne : cardId ≠ m.id) : KeepsCard env cardId k ((repair env dryRun m).run k).2 := by
  unfold repair
  split
  · exact .refl env cardId k
  · have h := elsewhere_appendActions env m.id (reconcileActions m.diff) k
    exact ⟨h.files, h.dir cardId hne⟩

/-- **The loop leaves a card** whose mismatches it skips. -/
theorem reconcileLoop_keeps (env : BoardEnv) (dryRun : Bool) :
    ∀ (mismatches : List Mismatch) (k : KanbanHome),
      (∀ m ∈ mismatches, m.id = cardId → wouldUncomplete m.diff = true) →
        KeepsCard env cardId k ((reconcileLoop env dryRun false mismatches).run k).2
  | [], k, _ => .refl env cardId k
  | m :: mismatches, k, hskip => by
    have hrest := fun k₁ => reconcileLoop_keeps env dryRun mismatches k₁ fun m' hm' =>
      hskip m' (List.mem_cons_of_mem m hm')
    have hpair : ∀ (f : ℕ × List String → ℕ × List String) (k₁ : KanbanHome),
        ((reconcileLoop env dryRun false mismatches >>= fun p => pure (f p)).run k₁).2 =
          ((reconcileLoop env dryRun false mismatches).run k₁).2 := by
      intro f k₁
      rw [run_bind]
      cases (reconcileLoop env dryRun false mismatches).run k₁ with
      | mk r k₂ => cases r <;> rfl
    unfold reconcileLoop
    split
    · rw [hpair fun p => (p.1, m.id :: p.2)]
      exact hrest k
    · rename_i hnot
      split
      · exact hrest k
      · have hne : cardId ≠ m.id := by
          intro heq
          exact hnot (hskip m List.mem_cons_self heq.symm)
        have hfirst := repair_keeps env dryRun m k hne
        rw [run_bind]
        cases h : (repair env dryRun m).run k with
        | mk r k₁ =>
          rw [h] at hfirst
          cases r with
          | error e => exact hfirst
          | ok u =>
            dsimp only
            rw [hpair fun p => (p.1 + 1, p.2)]
            exact hfirst.trans (hrest k₁)

/-- What the loop skips. -/
theorem reconcileLoop_skipped (env : BoardEnv) (dryRun : Bool) :
    ∀ (mismatches : List Mismatch) (k k' : KanbanHome) (n : ℕ) (skipped : List String),
      (reconcileLoop env dryRun false mismatches).run k = (.ok (n, skipped), k') →
        skipped = (mismatches.filter fun m => wouldUncomplete m.diff).map Mismatch.id
  | [], k, k', n, skipped, h => by
    cases h
    rfl
  | m :: mismatches, k, k', n, skipped, h => by
    unfold reconcileLoop at h
    rw [List.filter_cons]
    split at h
    · rename_i hskip
      obtain ⟨⟨n₁, skipped₁⟩, k₁, hrun, h⟩ := run_bind_eq_ok.mp h
      have hrest := reconcileLoop_skipped env dryRun mismatches _ _ _ _ hrun
      cases h
      rw [Bool.not_false, Bool.true_and] at hskip
      rw [hskip, if_pos rfl, List.map_cons, ← hrest]
    · rename_i hskip
      rw [Bool.not_false, Bool.true_and] at hskip
      rw [if_neg hskip]
      split at h
      · exact reconcileLoop_skipped env dryRun mismatches _ _ _ _ h
      · obtain ⟨-, k₁, -, h⟩ := run_bind_eq_ok.mp h
        obtain ⟨⟨n₂, skipped₂⟩, k₂, hrun, h⟩ := run_bind_eq_ok.mp h
        have hrest := reconcileLoop_skipped env dryRun mismatches _ _ _ _ hrun
        cases h
        exact hrest

/-! ### Completed work -/

theorem parityCheck_eq_report {r : ParityReport} : parityCheck env k = .report r ↔
    ∃ legacy stored, legacyCards env k true = .ok legacy ∧
      (k.store env).listCards env.env true = .ok stored ∧
      compareSides k.statusIds openDriftThreshold (cardsById legacy) (cardsById stored) = r := by
  unfold parityCheck
  constructor
  · intro h
    split at h
    · cases h
    · rename_i legacy hlegacy
      split at h
      · cases h
      · rename_i stored hstored
        exact ⟨legacy, stored, hlegacy, hstored, Parity.report.inj h⟩
  · rintro ⟨legacy, stored, hlegacy, hstored, rfl⟩
    rw [hlegacy]
    dsimp only
    rw [hstored]

/-- A check that returns no report ends the reconciliation. -/
theorem run_reconcile_of_failure {outcome reason : String} (dryRun : Bool)
    (h : parityCheck env k = .failure outcome reason) :
    (reconcileFromLegacy env dryRun false).run k =
      (.ok { fixed := some 0, wouldFix := some 0, skippedUncomplete := []
             outcome := some outcome, actionable := false }, k) := by
  unfold reconcileFromLegacy
  rw [run_get_bind, h]
  rfl

/-- The reconciliation behind a check that returns a report. -/
theorem run_reconcile_of_report {r : ParityReport} (dryRun : Bool)
    (h : parityCheck env k = .report r) :
    (reconcileFromLegacy env dryRun false).run k =
      match (reconcileLoop env dryRun false r.mismatches).run k with
      | (.error e, k') => (.error e, k')
      | (.ok (count, skipped), k') =>
        (.ok { fixed := if dryRun then none else some count
               wouldFix := if dryRun then some count else none
               skippedUncomplete := skipped }, k') := by
  unfold reconcileFromLegacy
  rw [run_get_bind, h]
  dsimp only
  rw [run_bind]
  cases (reconcileLoop env dryRun false r.mismatches).run k with
  | mk x k' => cases x <;> rfl

/-- The legacy projection shows a card done. -/
def ShowsDone (env : BoardEnv) (k : KanbanHome) (cardId : String) : Prop :=
  ∃ legacy lc, legacyCards env k true = .ok legacy ∧
    Assoc.get? (cardsById legacy) cardId = some lc ∧ lc.status = .done

/-- A card folds to `done`, and the legacy projection does not show it done. -/
def DoneInStoreAlone (env : BoardEnv) (k : KanbanHome) (cardId : String) : Prop :=
  (∃ sc, (k.store env).fold env.env cardId = .ok (some sc) ∧ sc.status = .done) ∧
    ¬ShowsDone env k cardId

/-- Both sides can be read and list the card, the store as done, and its legacy status is known. -/
def LegacyStatusKnown (env : BoardEnv) (k : KanbanHome) (cardId : String) : Prop :=
  cardId ∈ k.statusIds ∧
    (∃ legacy lc, legacyCards env k true = .ok legacy ∧
      Assoc.get? (cardsById legacy) cardId = some lc) ∧
    ∃ stored sc, (k.store env).listCards env.env true = .ok stored ∧
      Assoc.get? (cardsById stored) cardId = some sc ∧ sc.status = .done

/-- No event is appended to a card, and it folds as before. -/
structure Untouched (env : BoardEnv) (cardId : String) (k k' : KanbanHome) : Prop where
  dir : (k'.store env).dir cardId = (k.store env).dir cardId
  fold : (k'.store env).fold env.env cardId = (k.store env).fold env.env cardId

theorem KeepsCard.untouched (h : KeepsCard env cardId k k') : Untouched env cardId k k' :=
  ⟨h.dir, Store.fold_congr h.dir h.files.legacy⟩

/-- Two columns of one bucket are done together. -/
theorem done_of_bucket_eq {a b : Column} (h : a.bucket = b.bucket) (hb : b = .done) :
    a = .done := by
  subst hb
  cases a <;> first | rfl | exact absurd h (by decide)

/-- The difference of a card that is done in the store alone. -/
theorem wouldUncomplete_iff {statusIds : List String} {lc sc : Card} :
    wouldUncomplete (fieldDiff statusIds cardId lc sc) = true ↔
      cardId ∈ statusIds ∧ sc.status = .done ∧ lc.status ≠ .done := by
  unfold wouldUncomplete fieldDiff
  dsimp only
  by_cases h : cardId ∈ statusIds ∧ lc.status.bucket ≠ sc.status.bucket
  · rw [if_pos h]
    dsimp only
    rw [Bool.and_eq_true, beq_iff_eq, bne_iff_ne]
    exact ⟨fun hd => ⟨h.1, hd⟩, And.right⟩
  · rw [if_neg h]
    refine ⟨nofun, fun ⟨hid, hdone, hne⟩ => absurd ⟨hid, fun heq => ?_⟩ h⟩
    exact hne (done_of_bucket_eq heq hdone)

theorem isEmpty_of_wouldUncomplete {d : FieldDiff} (h : wouldUncomplete d = true) :
    d.isEmpty = false := by
  unfold wouldUncomplete at h
  unfold FieldDiff.isEmpty
  split at h
  · cases h
  · rename_i hstatus
    rw [hstatus]
    rfl

/-- A skipped card is one whose legacy status is known. -/
theorem mem_skipped_iff {r : ParityReport} (h : parityCheck env k = .report r) :
    cardId ∈ (r.mismatches.filter fun m => wouldUncomplete m.diff).map Mismatch.id ↔
      LegacyStatusKnown env k cardId ∧ ¬ShowsDone env k cardId := by
  obtain ⟨legacy, stored, hlegacy, hstored, rfl⟩ := parityCheck_eq_report.mp h
  have hkeys := keys_cardsById_nodup legacy
  constructor
  · intro hmem
    obtain ⟨m, hm, rfl⟩ := List.mem_map.mp hmem
    obtain ⟨hm, hskip⟩ := List.mem_filter.mp hm
    obtain ⟨lc, sc, hlc, hsc, hdiff, -⟩ := (mem_mismatches hkeys).mp hm
    rw [hdiff] at hskip
    obtain ⟨hid, hdone, hne⟩ := wouldUncomplete_iff.mp hskip
    refine ⟨⟨hid, ⟨legacy, lc, hlegacy, hlc⟩, stored, sc, hstored, hsc, hdone⟩, ?_⟩
    rintro ⟨legacy', lc', hlegacy', hlc', hdone'⟩
    cases hlegacy.symm.trans hlegacy'
    cases hlc.symm.trans hlc'
    exact hne hdone'
  · rintro ⟨⟨hid, ⟨legacy', lc, hlegacy', hlc⟩, stored', sc, hstored', hsc, hdone⟩, hshows⟩
    cases hlegacy.symm.trans hlegacy'
    cases hstored.symm.trans hstored'
    have hskip : wouldUncomplete (fieldDiff k.statusIds cardId lc sc) = true :=
      wouldUncomplete_iff.mpr ⟨hid, hdone, fun hd => hshows ⟨legacy, lc, hlegacy, hlc, hd⟩⟩
    refine List.mem_map.mpr ⟨⟨cardId, fieldDiff k.statusIds cardId lc sc⟩,
      List.mem_filter.mpr ⟨(mem_mismatches hkeys).mpr ⟨lc, sc, hlc, hsc, rfl, ?_⟩, hskip⟩, rfl⟩
    exact isEmpty_of_wouldUncomplete hskip

/-- A skipped card has no other mismatch. -/
theorem wouldUncomplete_of_mem {r : ParityReport} (h : parityCheck env k = .report r)
    (hskipped : cardId ∈ (r.mismatches.filter fun m => wouldUncomplete m.diff).map Mismatch.id) :
    ∀ m ∈ r.mismatches, m.id = cardId → wouldUncomplete m.diff = true := by
  obtain ⟨legacy, stored, hlegacy, hstored, rfl⟩ := parityCheck_eq_report.mp h
  obtain ⟨m', hm', rfl⟩ := List.mem_map.mp hskipped
  obtain ⟨hm', hskip⟩ := List.mem_filter.mp hm'
  intro m hm hid
  have heq := List.inj_on_of_nodup_map (nodup_mismatches (keys_cardsById_nodup legacy)) hm hm' hid
  rw [heq]
  exact hskip

/-- **Completed work is spared** exactly where its legacy status is known.  A card that is done in
the store alone is left alone and reported if its task file carries a status; a reconciliation that
returns spares all such cards exactly when all their files do. -/
theorem reconcile_spares_done_iff (env : BoardEnv) (k : KanbanHome) (dryRun : Bool) :
    (∀ cardId, DoneInStoreAlone env k cardId → LegacyStatusKnown env k cardId →
      Untouched env cardId k ((reconcileFromLegacy env dryRun false).run k).2) ∧
    ∀ report k', (reconcileFromLegacy env dryRun false).run k = (.ok report, k') →
      ((∀ cardId, DoneInStoreAlone env k cardId →
          cardId ∈ report.skippedUncomplete ∧ Untouched env cardId k k') ↔
        ∀ cardId, DoneInStoreAlone env k cardId → LegacyStatusKnown env k cardId) := by
  cases hparity : parityCheck env k with
  | failure outcome reason =>
    rw [run_reconcile_of_failure dryRun hparity]
    refine ⟨fun cardId _ _ => ⟨rfl, rfl⟩, fun report k' h => ?_⟩
    cases h
    refine ⟨fun h cardId hdone => absurd (h cardId hdone).1 List.not_mem_nil,
      fun h cardId hdone => ?_⟩
    -- a known status needs both sides
    obtain ⟨-, ⟨legacy, lc, hlegacy, -⟩, stored, sc, hstored, -⟩ := h cardId hdone
    cases hparity.symm.trans (parityCheck_eq_report.mpr ⟨legacy, stored, hlegacy, hstored, rfl⟩)
  | report r =>
    have hkeeps : ∀ cardId, DoneInStoreAlone env k cardId → LegacyStatusKnown env k cardId →
        Untouched env cardId k ((reconcileLoop env dryRun false r.mismatches).run k).2 := by
      intro cardId hdone hknown
      have hskipped := (mem_skipped_iff hparity).mpr ⟨hknown, hdone.2⟩
      exact (reconcileLoop_keeps env dryRun r.mismatches k
        (wouldUncomplete_of_mem hparity hskipped)).untouched
    rw [run_reconcile_of_report dryRun hparity]
    cases hloop : (reconcileLoop env dryRun false r.mismatches).run k with
    | mk x k₁ =>
      rw [hloop] at hkeeps
      cases x with
      | error e => exact ⟨hkeeps, fun report k' h => by cases h⟩
      | ok p =>
        obtain ⟨count, skipped⟩ := p
        have hskipped := reconcileLoop_skipped env dryRun r.mismatches k k₁ count skipped hloop
        refine ⟨hkeeps, fun report k' h => ?_⟩
        cases h
        constructor
        · intro h cardId hdone
          have hmem : cardId ∈ skipped := (h cardId hdone).1
          rw [hskipped] at hmem
          exact ((mem_skipped_iff hparity).mp hmem).1
        · intro h cardId hdone
          refine ⟨?_, hkeeps cardId hdone (h cardId hdone)⟩
          show cardId ∈ skipped
          rw [hskipped]
          exact (mem_skipped_iff hparity).mpr ⟨h cardId hdone, hdone.2⟩

/-- A completed card whose task file carries no status and which `alice` still claims. -/
def staleClaimHome : KanbanHome where
  board :=
    { creation :=
        { store :=
            { cards := [("t1",
                { core := .present { id := "t1", title := "one", createdAt := "2026" }
                  logs := [("bob@host.jsonl", [.value (.obj [("ts", .str ""), ("writer", .str "bob"),
                    ("seq", .int 0), ("action", .str "complete")])])] })] } }
      tasks := [("t1-one.json", { id := "t1", title := "one", createdAt := "2026" })]
      agents := [("alice", { agent := "alice", lastSeen := "", claimedTasks := ["t1"] })] }

/-- The reconciliation of `staleClaimHome`. -/
def staleClaimReconciled : Except PyError ReconcileReport × KanbanHome :=
  (reconcileFromLegacy unaryEnv false false).run staleClaimHome

theorem doneInStoreAlone_staleClaim : DoneInStoreAlone unaryEnv staleClaimHome "t1" := by
  have hfold : ((staleClaimHome.store unaryEnv).fold unaryEnv.env "t1").toOption.bind
      (Option.map Card.status) = some .done := by decide +kernel
  have hlegacy : (legacyCards unaryEnv staleClaimHome true).toOption.bind (fun legacy =>
      (Assoc.get? (cardsById legacy) "t1").map Card.status) = some .ready := by decide +kernel
  constructor
  · obtain ⟨found, hfound, hstatus⟩ := Option.bind_eq_some_iff.mp hfold
    obtain ⟨sc, rfl, hdone⟩ := Option.map_eq_some_iff.mp hstatus
    exact ⟨sc, toOption_eq_some.mp hfound, hdone⟩
  · rintro ⟨legacy, lc, hok, hget, hdone⟩
    rw [hok] at hlegacy
    have hready : (Assoc.get? (cardsById legacy) "t1").map Card.status = some .ready := hlegacy
    rw [hget, Option.map_some, hdone] at hready
    cases hready

/-- The completed card of `staleClaimHome` is assigned to `alice`, and it is not reported. -/
theorem reconcile_touches_done : DoneInStoreAlone unaryEnv staleClaimHome "t1" ∧
    staleClaimReconciled.1 = .ok { fixed := some 1, wouldFix := none, skippedUncomplete := [] } ∧
    ¬Untouched unaryEnv "t1" staleClaimHome staleClaimReconciled.2 := by
  refine ⟨doneInStoreAlone_staleClaim, by decide +kernel, fun h => ?_⟩
  have howner : ((staleClaimReconciled.2.store unaryEnv).fold unaryEnv.env "t1").toOption.bind
      (Option.map fun c => c.owner.isNone) = some false := by decide +kernel
  have howner' : ((staleClaimHome.store unaryEnv).fold unaryEnv.env "t1").toOption.bind
      (Option.map fun c => c.owner.isNone) = some true := by decide +kernel
  rw [h.fold, howner'] at howner
  cases howner

/-- The same home, with a status in the task file: the reconciliation returns and spares the card
because the status is known. -/
def knownStatusHome : KanbanHome := { staleClaimHome with statusIds := ["t1"] }

/-- The reconciliation of `knownStatusHome`. -/
def knownStatusReconciled : Except PyError ReconcileReport × KanbanHome :=
  (reconcileFromLegacy unaryEnv false false).run knownStatusHome

/-- A card that is done in the store alone and whose task file carries a status: the reconciliation
leaves it alone and reports it. -/
theorem reconcile_spares_known : ∃ report, knownStatusReconciled = (.ok report,
      knownStatusReconciled.2) ∧
    ((∀ cardId, DoneInStoreAlone unaryEnv knownStatusHome cardId →
        cardId ∈ report.skippedUncomplete ∧
          Untouched unaryEnv cardId knownStatusHome knownStatusReconciled.2) ↔
      ∀ cardId, DoneInStoreAlone unaryEnv knownStatusHome cardId →
        LegacyStatusKnown unaryEnv knownStatusHome cardId) := by
  have hok : knownStatusReconciled.1.isOk = true := by decide +kernel
  obtain ⟨report, hreport⟩ := isOk_iff.mp hok
  have hrun : knownStatusReconciled = (.ok report, knownStatusReconciled.2) :=
    eq_mk_of_fst_eq hreport
  exact ⟨report, hrun,
    (reconcile_spares_done_iff unaryEnv knownStatusHome false).2 report _ hrun⟩

end SkCoord
