import SkCoord.Lifecycle.Repair

/-!
# The receipts of a repair

`LogLine.entry` is the identifier and the phase that a line of a receipt log names.  Where every line
is a receipt and the intents of one identifier agree on their scope, `unresolvedReceiptIds` returns and
lists exactly the intents without an outcome (`unresolvedReceiptIds_spec`).
-/

namespace SkCoord

open Python Effect

/-! ### Lines -/

/-- The identifier and the phase of a line. -/
def LogLine.entry : LogLine → Option (String × String)
  | .value (.obj payload) =>
    match Dict.get payload "receipt_id", Dict.get payload "phase" with
    | .str receiptId, .null => some (receiptId, "legacy_committed")
    | .str receiptId, .str phase => some (receiptId, phase)
    | _, _ => none
  | _ => none

/-- The scope of an intent. -/
def LogLine.scope : LogLine → Option (Option (List String))
  | .value (.obj payload) => (receiptScope payload).toOption
  | _ => none

/-- A line that `unresolvedReceiptIds` can read. -/
inductive LogLine.IsReceipt : LogLine → Prop
  | other (payload : Dict) (hid : Dict.get payload "receipt_id" = .null)
      (hphase : Dict.get payload "phase" = .null) : IsReceipt (.value (.obj payload))
  | legacy (payload : Dict) (receiptId : String) (hid : Dict.get payload "receipt_id" = .str receiptId)
      (hphase : Dict.get payload "phase" = .null) : IsReceipt (.value (.obj payload))
  | receipt (payload : Dict) (receiptId phase : String)
      (hid : Dict.get payload "receipt_id" = .str receiptId)
      (hphase : Dict.get payload "phase" = .str phase)
      (hscope : phase = "intent" → ∃ scope, receiptScope payload = .ok scope) :
      IsReceipt (.value (.obj payload))

namespace LifecycleHome

variable {h h' : LifecycleHome}

/-- A line of one of the receipt logs. -/
def HasLine (h : LifecycleHome) (line : LogLine) : Prop := ∃ p ∈ h.receipts, line ∈ p.2.lines

/-- A receipt identifier carries a phase. -/
def Carries (h : LifecycleHome) (receiptId phase : String) : Prop :=
  ∃ line, h.HasLine line ∧ line.entry = some (receiptId, phase)

theorem mem_receiptLines {line : LogLine} : line ∈ h.receiptLines ↔ h.HasLine line := by
  unfold receiptLines HasLine
  rw [List.mem_flatMap]
  constructor
  · rintro ⟨p, hp, hline⟩
    exact ⟨p, (List.mem_insertionSort _).mp hp, hline⟩
  · rintro ⟨p, hp, hline⟩
    exact ⟨p, (List.mem_insertionSort _).mpr hp, hline⟩

theorem carries_iff {receiptId phase : String} :
    h.Carries receiptId phase ↔ (receiptId, phase) ∈ h.receiptLines.filterMap LogLine.entry := by
  rw [List.mem_filterMap]
  constructor
  · rintro ⟨line, hline, hentry⟩
    exact ⟨line, mem_receiptLines.mpr hline, hentry⟩
  · rintro ⟨line, hline, hentry⟩
    exact ⟨line, mem_receiptLines.mp hline, hentry⟩

/-- The logs can be read: every line is a receipt, and the intents of an identifier agree. -/
structure Readable (h : LifecycleHome) : Prop where
  terminated : ∀ p ∈ h.receipts, p.2.terminated = true
  receipts : ∀ line, h.HasLine line → line.IsReceipt
  scopes : ∀ x y, h.HasLine x → h.HasLine y → ∀ receiptId, x.entry = some (receiptId, "intent") →
    y.entry = some (receiptId, "intent") → x.scope = y.scope

end LifecycleHome

/-! ### Reading the logs -/

theorem mem_foldl_addValue : ∀ {l : List (String × String)} {d : Assoc String (List String)}
    {p : String × List String}, p ∈ l.foldl Assoc.addValue d →
      p.1 ∈ Assoc.keys d ∨ ∃ q ∈ l, q.1 = p.1
  | [], _, p, hp => .inl (List.mem_map_of_mem hp)
  | q :: l, d, p, hp => by
    rw [List.foldl_cons] at hp
    rcases mem_foldl_addValue hp with h | ⟨q', hq', h⟩
    · rcases Assoc.mem_keys_set.mp h with h | h
      · exact .inr ⟨q, List.mem_cons_self, h.symm⟩
      · exact .inl h
    · exact .inr ⟨q', List.mem_cons_of_mem _ hq', h⟩

/-- The lines are read one after another, by induction: nothing raises while the scopes that were
read agree with those to come. -/
theorem foldlM_read : ∀ {lines : List LogLine} {r : ReceiptPhases},
    (∀ line ∈ lines, line.IsReceipt) →
    (∀ x ∈ lines, ∀ y ∈ lines, ∀ receiptId, x.entry = some (receiptId, "intent") →
      y.entry = some (receiptId, "intent") → x.scope = y.scope) →
    (∀ x ∈ lines, ∀ receiptId, x.entry = some (receiptId, "intent") →
      ∀ scope, Assoc.get? r.scopes receiptId = some scope → x.scope = some scope) →
    ∃ r', lines.foldlM ReceiptPhases.read r = .ok r' ∧
      r'.phases = (lines.filterMap LogLine.entry).foldl Assoc.addValue r.phases
  | [], r, _, _, _ => ⟨r, rfl, rfl⟩
  | line :: lines, r, hreceipts, hscopes, hread => by
    -- the entry of the line joins the phases, and its scope agrees with all the others
    have hone : ∃ r₁, r.read line = .ok r₁ ∧
        r₁.phases = (line.entry.toList).foldl Assoc.addValue r.phases ∧
        ∀ x ∈ lines, ∀ receiptId, x.entry = some (receiptId, "intent") →
          ∀ scope, Assoc.get? r₁.scopes receiptId = some scope → x.scope = some scope := by
      have hkeep : ∀ x ∈ lines, ∀ receiptId, x.entry = some (receiptId, "intent") →
          ∀ scope, Assoc.get? r.scopes receiptId = some scope → x.scope = some scope :=
        fun x hx => hread x (List.mem_cons_of_mem _ hx)
      cases hreceipts line List.mem_cons_self with
      | other payload hid hphase =>
        refine ⟨r, ?_, ?_, hkeep⟩
        · unfold ReceiptPhases.read
          dsimp only
          rw [hid, hphase]
          rfl
        · unfold LogLine.entry
          dsimp only
          rw [hid, hphase]
          rfl
      | legacy payload receiptId hid hphase =>
        refine ⟨{ r with phases := Assoc.addValue r.phases (receiptId, "legacy_committed") }, ?_, ?_,
          hkeep⟩
        · unfold ReceiptPhases.read
          dsimp only
          rw [hid, hphase]
          rfl
        · unfold LogLine.entry
          dsimp only
          rw [hid, hphase]
          rfl
      | receipt payload receiptId phase hid hphase hscope =>
        have hentry : (LogLine.value (.obj payload)).entry = some (receiptId, phase) := by
          unfold LogLine.entry
          dsimp only
          rw [hid, hphase]
        rw [hentry]
        by_cases hintent : phase = "intent"
        · subst hintent
          obtain ⟨scope, hscope⟩ := hscope rfl
          have hlineScope : (LogLine.value (.obj payload)).scope = some scope := by
            unfold LogLine.scope
            dsimp only
            rw [hscope]
            rfl
          have hagrees : ((Assoc.get? r.scopes receiptId).any (· ≠ scope)) = false := by
            cases hget : Assoc.get? r.scopes receiptId with
            | none => rfl
            | some old =>
              have hold := hread _ List.mem_cons_self receiptId hentry old hget
              rw [hlineScope] at hold
              simp [Option.some.inj hold]
          refine ⟨{ r with
            phases := Assoc.addValue r.phases (receiptId, "intent")
            scopes := Assoc.set r.scopes receiptId scope }, ?_, rfl, ?_⟩
          · unfold ReceiptPhases.read
            dsimp only
            rw [hid, hphase]
            dsimp only
            rw [if_pos rfl, hscope]
            dsimp only [bind, Except.bind]
            rw [hagrees, if_neg Bool.false_ne_true]
            rfl
          · intro x hx receiptId' hx' scope' hget
            dsimp only at hget
            rw [Assoc.get?_set] at hget
            split at hget
            · rename_i heq
              subst heq
              cases hget
              rw [← hlineScope]
              exact (hscopes _ List.mem_cons_self x (List.mem_cons_of_mem _ hx) _ hentry hx').symm
            · exact hkeep x hx receiptId' hx' scope' hget
        · refine ⟨{ r with phases := Assoc.addValue r.phases (receiptId, phase) }, ?_, rfl, hkeep⟩
          unfold ReceiptPhases.read
          dsimp only
          rw [hid, hphase]
          dsimp only
          rw [if_neg hintent]
          rfl
    obtain ⟨r₁, hr₁, hphases, hread₁⟩ := hone
    obtain ⟨r', hr', hphases'⟩ := foldlM_read (r := r₁)
      (fun x hx => hreceipts x (List.mem_cons_of_mem _ hx))
      (fun x hx y hy => hscopes x (List.mem_cons_of_mem _ hx) y (List.mem_cons_of_mem _ hy)) hread₁
    refine ⟨r', foldlM_cons_eq_ok.mpr ⟨r₁, hr₁, hr'⟩, ?_⟩
    rw [hphases', hphases]
    cases hentry : line.entry with
    | none => rw [List.filterMap_cons_none hentry]; rfl
    | some p => rw [List.filterMap_cons_some hentry]; rfl

/-- **The report**: it lists every intent without an outcome, and only identifiers that the logs
name. -/
theorem unresolvedReceiptIds_spec {h : LifecycleHome} (hread : h.Readable) :
    ∃ l, unresolvedReceiptIds h = .ok l ∧
      (∀ receiptId, h.Carries receiptId "intent" →
        (∀ phase ∈ terminalPhases, ¬ h.Carries receiptId phase) → ∃ scope, (receiptId, scope) ∈ l) ∧
      ∀ p ∈ l, ∃ phase, h.Carries p.1 phase := by
  -- The reading loop leaves, under each identifier, the phases of its lines.
  obtain ⟨r, hr, hphases⟩ := @foldlM_read h.receiptLines {}
    (fun line hline => hread.receipts line (LifecycleHome.mem_receiptLines.mp hline))
    (fun x hx y hy => hread.scopes x y (LifecycleHome.mem_receiptLines.mp hx)
      (LifecycleHome.mem_receiptLines.mp hy))
    (fun x _ _ _ scope hget => by cases hget)
  have hvalues : ∀ {receiptId phase}, phase ∈ Assoc.valuesOf receiptId
      (h.receiptLines.filterMap LogLine.entry) ↔ h.Carries receiptId phase := by
    intro receiptId phase
    unfold Assoc.valuesOf
    rw [LifecycleHome.carries_iff, List.mem_map]
    constructor
    · rintro ⟨⟨id, ph⟩, hp, rfl⟩
      obtain ⟨hp, heq⟩ := List.mem_filter.mp hp
      have hid : id = receiptId := by simpa using heq
      exact hid ▸ hp
    · intro hp
      exact ⟨(receiptId, phase), List.mem_filter.mpr ⟨hp, by simp⟩, rfl⟩
  refine ⟨_, bind_eq_ok.mpr ⟨r, hr, rfl⟩, fun receiptId hintent hopen => ?_, fun p hp => ?_⟩
  · -- An intent without an outcome: its phases have the one and none of the others.
    have hget : (Assoc.get? r.phases receiptId).getD [] =
        Assoc.valuesOf receiptId (h.receiptLines.filterMap LogLine.entry) := by
      rw [hphases, Assoc.get?_foldl_addValue]
      rfl
    cases hsome : Assoc.get? r.phases receiptId with
    | none =>
      rw [hsome] at hget
      have hmem := hvalues.mpr hintent
      rw [← hget] at hmem
      exact (List.not_mem_nil hmem).elim
    | some phases =>
      rw [hsome] at hget
      change phases = _ at hget
      refine ⟨(Assoc.get? r.scopes receiptId).join, (List.mem_insertionSort _).mpr (List.mem_map.mpr
        ⟨(receiptId, phases), List.mem_filter.mpr ⟨Assoc.mem_of_get? hsome, ?_⟩, rfl⟩)⟩
      have hhas : phases.contains "intent" = true := by
        rw [List.contains_iff_mem, hget]
        exact hvalues.mpr hintent
      have hnone : (phases.any fun phase => terminalPhases.contains phase) = false := by
        rw [List.any_eq_false]
        intro phase hphase hterminal
        rw [hget] at hphase
        exact hopen phase (List.contains_iff_mem.mp hterminal) (hvalues.mp hphase)
      dsimp only
      rw [hhas, hnone]
      rfl
  · -- A listed identifier is a key of the phases, and every key came from a line.
    obtain ⟨q, hq, rfl⟩ := List.mem_map.mp ((List.mem_insertionSort _).mp hp)
    have hkey := (List.mem_filter.mp hq).1
    rw [hphases] at hkey
    rcases mem_foldl_addValue hkey with hnil | ⟨e, he, heq⟩
    · exact (List.not_mem_nil hnil).elim
    · refine ⟨e.2, LifecycleHome.carries_iff.mpr ?_⟩
      rw [← heq]
      exact he

end SkCoord
