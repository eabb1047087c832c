import SkCoord.Portfolio.Plan
import SkCoord.Python.Except

/-!
# Sorted and unique

What the validators ask of texts, in terms of the order: `sortedUnique_iff`.  The candidates that
`orderedCandidates` leaves have strictly increasing ids, and all ids are among them.
-/

namespace SkCoord.Portfolio

open Python

variable {u : Unicode}

/-! ### Texts -/

theorem sortedUnique_iff {values : List String} :
    SortedUnique u values ↔ (∀ s ∈ values, u.nfc s = s) ∧ values.Pairwise (· < ·) := by
  have hnfc : values.map u.nfc = values ↔ ∀ s ∈ values, u.nfc s = s := by
    constructor
    · intro h s hs
      exact List.map_inj_left.mp (h.trans (List.map_id values).symm) s hs
    · exact fun h => (List.map_congr_left h).trans (List.map_id values)
  rw [SortedUnique, hnfc]
  refine and_congr_right fun _ => ⟨fun ⟨hsorted, hnodup⟩ => ?_, fun h => ?_⟩
  · have hle : values.Pairwise (· ≤ ·) := hsorted ▸ List.pairwise_insertionSort (· ≤ ·) values
    exact (hle.and hnodup).imp fun h => lt_of_le_of_ne h.1 h.2
  · exact ⟨List.Pairwise.insertionSort_eq (h.imp le_of_lt), h.imp ne_of_lt⟩

theorem isAscii_text (reason : ReasonCode) : DateTime.IsAscii reason.text.toList := by
  have hall : reason.text.toList.all (fun c => c.toNat < 128) = true := by
    cases reason with
    | parity s | boardRead s | executorProfile s | executorCapability s =>
      cases s <;> decide +kernel
    | enrollment s => cases s <;> decide +kernel
    | humanGate s => cases s <;> decide +kernel
    | lease s => cases s <;> decide +kernel
    | _ => decide +kernel
  exact fun c hc => of_decide_eq_true (List.all_eq_true.mp hall c hc)

theorem sortedUnique_sortedTexts (u : Unicode) (reasons : List ReasonCode) :
    SortedUnique u (sortedTexts reasons) := by
  have hperm : (sortedTexts reasons).Perm (reasons.map ReasonCode.text).dedup :=
    List.perm_insertionSort _ _
  have hsorted : (sortedTexts reasons).Pairwise (· ≤ ·) := List.pairwise_insertionSort _ _
  have hnodup : (sortedTexts reasons).Nodup := hperm.nodup_iff.mpr (List.nodup_dedup _)
  refine sortedUnique_iff.mpr ⟨fun s hs => ?_, (hsorted.and hnodup).imp fun h =>
    lt_of_le_of_ne h.1 h.2⟩
  obtain ⟨reason, -, rfl⟩ := List.mem_map.mp (List.mem_dedup.mp (hperm.mem_iff.mp hs))
  exact u.nfc_ascii _ (isAscii_text reason)

theorem sortedTexts_eq_nil {reasons : List ReasonCode} : sortedTexts reasons = [] ↔ reasons = [] := by
  have hperm : (sortedTexts reasons).Perm (reasons.map ReasonCode.text).dedup :=
    List.perm_insertionSort _ _
  constructor
  · intro h
    rw [h] at hperm
    have hnil : ∀ t ∈ reasons.map ReasonCode.text, False := fun t ht =>
      List.not_mem_nil (hperm.mem_iff.mpr (List.mem_dedup.mpr ht))
    exact List.map_eq_nil_iff.mp (List.eq_nil_iff_forall_not_mem.mpr hnil)
  · rintro rfl
    rfl

theorem mem_flag {c : Prop} [Decidable c] {reason r : ReasonCode} :
    r ∈ flag c reason ↔ c ∧ r = reason := by
  rw [flag]
  split <;> simp [*]

theorem flag_eq_nil {c : Prop} [Decidable c] {reason : ReasonCode} : flag c reason = [] ↔ ¬ c := by
  rw [flag]
  split <;> simp [*]

/-! ### Candidates in order -/

/-- A list whose keys do not decrease leaves a dictionary whose keys increase. -/
theorem pairwise_keys_foldl_set {α : Type*} (key : α → String) : ∀ (l : List α) (d : Assoc String α),
    (Assoc.keys d).Pairwise (· < ·) → l.Pairwise (fun x y => key x ≤ key y) →
      (∀ k ∈ Assoc.keys d, ∀ x ∈ l, k ≤ key x) →
        (Assoc.keys (l.foldl (fun d x => Assoc.set d (key x) x) d)).Pairwise (· < ·)
  | [], _, hd, _, _ => hd
  | x :: l, d, hd, hl, hle => by
    rw [List.pairwise_cons] at hl
    rw [List.foldl_cons]
    refine pairwise_keys_foldl_set key l _ ?_ hl.2 ?_
    · rw [Assoc.keys_set]
      split
      · exact hd
      · rename_i hnew
        refine List.pairwise_append.mpr ⟨hd, List.pairwise_singleton _ _, fun k hk j hj => ?_⟩
        obtain rfl := List.mem_singleton.mp hj
        exact lt_of_le_of_ne (hle k hk x List.mem_cons_self) fun h => hnew (h ▸ hk)
    · intro k hk y hy
      rcases Assoc.mem_keys_set.mp hk with rfl | hk
      · exact hl.1 y hy
      · exact hle k hk y (List.mem_cons_of_mem _ hy)

/-- The values of a dictionary that is filled under the key of each element. -/
theorem map_key_foldl_set {α : Type*} (key : α → String) (l : List α) :
    ((l.foldl (fun d x => Assoc.set d (key x) x) []).map Prod.snd).map key =
      Assoc.keys (l.foldl (fun d x => Assoc.set d (key x) x) []) := by
  have hinv : ∀ (l : List α) (d : Assoc String α), (∀ p ∈ d, key p.2 = p.1) →
      ∀ p ∈ l.foldl (fun d x => Assoc.set d (key x) x) d, key p.2 = p.1 := by
    intro l
    induction l with
    | nil => exact fun _ h => h
    | cons x l ih =>
      refine fun d hd => ih _ fun p hp => ?_
      rcases Assoc.mem_set hp with rfl | hp
      · rfl
      · exact hd p hp
  rw [List.map_map]
  exact List.map_congr_left fun p hp => hinv l [] (fun _ h => absurd h List.not_mem_nil) p hp

theorem mem_of_mem_foldl_set {α : Type*} (key : α → String) : ∀ (l : List α) (d : Assoc String α)
    {p : String × α}, p ∈ l.foldl (fun d x => Assoc.set d (key x) x) d → p ∈ d ∨ p.2 ∈ l
  | [], _, _, h => .inl h
  | x :: l, d, p, h => by
    rcases mem_of_mem_foldl_set key l _ h with h | h
    · rcases Assoc.mem_set h with rfl | h
      · exact .inr List.mem_cons_self
      · exact .inl h
    · exact .inr (List.mem_cons_of_mem _ h)

section

variable {candidates : List (WorkCandidate u)} {quality : PlanDataQuality}
  {policy : PortfolioPolicy u} {asOf : DateTime}

theorem duplicateCardId_notMem_quality :
    .duplicateCardId ∉ globalQualityReasons quality policy asOf := by
  unfold globalQualityReasons
  split <;> simp [mem_flag]

/-- The ids are distinct, unless the plan says otherwise. -/
theorem duplicateCardId_mem_iff :
    .duplicateCardId ∈ globalReasonsOf candidates quality policy asOf ↔
      ¬ (candidates.map WorkCandidate.cardId).Nodup := by
  rw [globalReasonsOf, List.mem_append, mem_flag]
  simp [duplicateCardId_notMem_quality]

theorem pairwise_le_sorted (candidates : List (WorkCandidate u)) :
    (candidates.insertionSort fun c d => c.cardId ≤ d.cardId).Pairwise
      fun c d => c.cardId ≤ d.cardId := by
  have htotal : Std.Total fun c d : WorkCandidate u => c.cardId ≤ d.cardId :=
    ⟨fun c d => le_total c.cardId d.cardId⟩
  have htrans : IsTrans (WorkCandidate u) fun c d => c.cardId ≤ d.cardId :=
    ⟨fun _ _ _ => le_trans⟩
  exact List.pairwise_insertionSort _ _

/-- **The ordered candidates** have increasing ids. -/
theorem pairwise_orderedCandidates :
    ((orderedCandidates (globalReasonsOf candidates quality policy asOf) candidates).map
      WorkCandidate.cardId).Pairwise (· < ·) := by
  have hsorted := pairwise_le_sorted candidates
  unfold orderedCandidates
  split
  · rw [map_key_foldl_set]
    exact pairwise_keys_foldl_set _ _ _ List.Pairwise.nil hsorted
      fun _ hk => absurd hk List.not_mem_nil
  · rename_i h
    rw [duplicateCardId_mem_iff, not_not] at h
    have hperm := (List.perm_insertionSort (fun c d => c.cardId ≤ d.cardId) candidates).map
      WorkCandidate.cardId
    have hnodup := hperm.nodup_iff.mpr h
    refine List.pairwise_map.mpr ((hsorted.and (List.pairwise_map.mp hnodup)).imp fun h => ?_)
    exact lt_of_le_of_ne h.1 h.2

theorem mem_orderedCandidates {globalReasons : List ReasonCode} {card : WorkCandidate u}
    (h : card ∈ orderedCandidates globalReasons candidates) : card ∈ candidates := by
  have hperm := List.perm_insertionSort (fun c d => c.cardId ≤ d.cardId) candidates
  unfold orderedCandidates at h
  split at h
  · obtain ⟨p, hp, rfl⟩ := List.mem_map.mp h
    rcases mem_of_mem_foldl_set _ _ _ hp with hp | hp
    · exact absurd hp List.not_mem_nil
    · exact hperm.mem_iff.mp hp
  · exact hperm.mem_iff.mp h

/-- No id is lost. -/
theorem mem_map_orderedCandidates {globalReasons : List ReasonCode} {id : String} :
    id ∈ (orderedCandidates globalReasons candidates).map WorkCandidate.cardId ↔
      id ∈ candidates.map WorkCandidate.cardId := by
  have hperm := (List.perm_insertionSort (fun c d => c.cardId ≤ d.cardId) candidates).map
    WorkCandidate.cardId
  unfold orderedCandidates
  split
  · have hpairs : ∀ (l : List (WorkCandidate u)) (d : Assoc String (WorkCandidate u)),
        l.foldl (fun d card => Assoc.set d card.cardId card) d =
          (l.map fun card => (card.cardId, card)).foldl (fun d p => Assoc.set d p.1 p.2) d := by
      intro l d
      rw [List.foldl_map]
    rw [map_key_foldl_set, hpairs, Assoc.mem_keys_foldl_set, ← hperm.mem_iff, Assoc.keys,
      Assoc.keys, List.map_map]
    simp [Function.comp_def]
  · exact hperm.mem_iff

/-- Without duplicates the cards are those of the input. -/
theorem mem_orderedCandidates_iff (h : (candidates.map WorkCandidate.cardId).Nodup)
    {card : WorkCandidate u} :
    card ∈ orderedCandidates (globalReasonsOf candidates quality policy asOf) candidates ↔
      card ∈ candidates := by
  rw [orderedCandidates, if_neg (by rw [duplicateCardId_mem_iff, not_not]; exact h)]
  exact (List.perm_insertionSort _ candidates).mem_iff

end

end SkCoord.Portfolio
