import SkCoord.Portfolio.Equiv.Decision
import SkCoord.Python.DateOrder
import Mathlib.Order.WithBot

/-!
# The declared order of cards

`declaredKey` is what cards are to be ranked by, `readKey` what the texts and stand-ins of a ranking
key come down to on a machine: `rankingKey_lt_iff`.  `declaredKey_lt_iff` names the pairs of cards on
which the two orders differ.
-/

namespace SkCoord.Portfolio

open Python

/-! ### Moments -/

/-- What a date says of when it is: an instant, or a wall in no particular place. -/
inductive Moment where
  | instant (micros : ℤ)
  | wall (micros : ℤ)
  deriving DecidableEq

/-- Instants are ordered by time; a wall is comparable with itself only. -/
instance : PartialOrder Moment where
  le
    | .instant i, .instant j => i ≤ j
    | .wall v, .wall w => v = w
    | _, _ => False
  le_refl
    | .instant i => le_refl i
    | .wall _ => rfl
  le_trans
    | .instant _, .instant _, .instant _ => le_trans
    | .wall _, .wall _, .wall _ => Eq.trans
    | .instant _, .wall _, _ => nofun
    | .wall _, .instant _, _ => nofun
    | .instant _, .instant _, .wall _ => fun _ => nofun
    | .wall _, .wall _, .instant _ => fun _ => nofun
  le_antisymm
    | .instant _, .instant _ => fun h h' => congrArg _ (le_antisymm h h')
    | .wall _, .wall _ => fun h _ => congrArg _ h
    | .instant _, .wall _ => nofun
    | .wall _, .instant _ => nofun

theorem Moment.instant_lt_instant {i j : ℤ} : Moment.instant i < .instant j ↔ i < j := by
  rw [lt_iff_le_not_ge, lt_iff_le_not_ge]
  rfl

/-- Only instants follow each other. -/
theorem Moment.exists_of_lt {m n : Moment} (h : m < n) :
    ∃ i j, m = .instant i ∧ n = .instant j ∧ i < j := by
  obtain ⟨hle, hne⟩ := lt_iff_le_not_ge.mp h
  cases m with
  | instant i =>
    cases n with
    | instant j => exact ⟨i, j, rfl, rfl, instant_lt_instant.mp h⟩
    | wall w => exact absurd hle id
  | wall v =>
    cases n with
    | instant j => exact absurd hle id
    | wall w => exact absurd (Eq.symm hle : w = v) hne

/-- The moment of a date. -/
def momentOf (t : DateTime) : Moment :=
  match t.offset with
  | some offset => .instant (t.wall - offset)
  | none => .wall t.wall

variable {env : Env} {u : Unicode}

/-! ### Keys -/

/-- What is absent comes last. -/
def absentLast {α : Type*} : Option α → WithTop α
  | none => ⊤
  | some a => a

/-- What is compared behind the human order and before the dates: the class, and the greater number
of unlocked cards first. -/
def tier (card : WorkCandidate u) (policy : PortfolioPolicy u) (asOf : DateTime) : ℕ ×ₗ ℤ :=
  toLex (policy.classOrder.idxOf (normalizedClass card asOf), -(card.downstreamUnlockCount : ℤ))

/-- What is compared behind the dates: the time since which the card is ready, its priority and its
id. -/
def tailKey (card : WorkCandidate u) (policy : PortfolioPolicy u) : WithTop ℤ ×ₗ ℕ ×ₗ String :=
  toLex (absentLast (card.readyAt.map DateTime.instant), toLex (policy.priorityOrder.idxOf card.priority,
    card.cardId))

/-- What is compared behind the human order, the date being given. -/
def restKey {β : Type*} (date : β) (card : WorkCandidate u) (policy : PortfolioPolicy u)
    (asOf : DateTime) : (ℕ ×ₗ ℤ) ×ₗ β ×ₗ WithTop ℤ ×ₗ ℕ ×ₗ String :=
  toLex (tier card policy asOf, toLex (date, tailKey card policy))

/-- What the cards are to be ranked by: no human order and no date come last. -/
def declaredKey (card : WorkCandidate u) (policy : PortfolioPolicy u) (asOf : DateTime) :
    WithTop ℕ ×ₗ (ℕ ×ₗ ℤ) ×ₗ WithTop Moment ×ₗ WithTop ℤ ×ₗ ℕ ×ₗ String :=
  toLex (absentLast card.humanOrder,
    restKey (absentLast (card.fixedDateAt.map momentOf)) card policy asOf)

/-- The human order that stands for none. -/
def lastOrder : ℕ := 2 ^ 31 - 1

/-- `9999-12-31T23:59:59+00:00`, which stands for no date. -/
def lastSecond : ℤ := dateTimeSpan - 1000000

/-- The reading in UTC of a time, on a machine. -/
def utcWall (env : Env) (t : DateTime) : ℤ :=
  t.wall - (t.offset.or (env.localOffset t.wall)).getD 0

/-- The date of a card as it is read. -/
def readDate (env : Env) (card : WorkCandidate u) : ℤ :=
  (card.fixedDateAt.map (utcWall env)).getD lastSecond

/-- What the cards are ranked by on a machine. -/
def readKey (env : Env) (card : WorkCandidate u) (policy : PortfolioPolicy u) (asOf : DateTime) :
    ℕ ×ₗ (ℕ ×ₗ ℤ) ×ₗ ℤ ×ₗ WithTop ℤ ×ₗ ℕ ×ₗ String :=
  toLex (card.humanOrder.getD lastOrder, restKey (readDate env card) card policy asOf)

/-! ### Texts of dates -/

theorem utcWall_eq_wall {t utc : DateTime} (h : toUtc env t = .ok utc) : utc.wall = utcWall env t := by
  unfold toUtc at h
  cases hoffset : t.offset.or (env.localOffset t.wall) with
  | none =>
    rw [hoffset] at h
    exact absurd h throw_ne_ok
  | some offset =>
    rw [hoffset] at h
    dsimp only at h
    cases hutc : t.toUtc? offset with
    | none =>
      rw [hutc] at h
      exact absurd h throw_ne_ok
    | some utc' =>
      rw [hutc] at h
      rw [← pure_eq_ok.mp h, utcWall, hoffset]
      unfold DateTime.toUtc? at hutc
      split at hutc
      · rw [← Option.some.inj hutc]
        rfl
      · cases hutc

theorem utcWall_eq_instant {t : DateTime} (h : t.isAware = true) : utcWall env t = t.instant := by
  obtain ⟨offset, hoffset⟩ := Option.isSome_iff_exists.mp h
  rw [utcWall, DateTime.instant, hoffset]
  rfl

theorem momentOf_eq_instant {t : DateTime} (h : t.isAware = true) :
    momentOf t = .instant t.instant := by
  obtain ⟨offset, hoffset⟩ := Option.isSome_iff_exists.mp h
  rw [momentOf, DateTime.instant, hoffset]
  rfl

theorem momentOf_eq_wall {t : DateTime} (h : t.isAware = false) : momentOf t = .wall t.wall := by
  rw [momentOf, Option.isSome_eq_false_iff.mp h |> Option.isNone_iff_eq_none.mp]

/-- The text that stands for no date is that of its last second. -/
def lastDate : DateTime where
  wall := lastSecond
  offset := some 0

theorem isoUtc_lastDate : lastDate.isoUtc = "9999-12-31T23:59:59+00:00" := by decide +kernel

/-- The text of the date of a card is that of the reading it comes down to. -/
theorem exists_fixedDateText {card : WorkCandidate u} {text : String}
    (h : fixedDateText env card.fixedDateAt = .ok text) :
    ∃ t : DateTime, t.isoUtc = text ∧ t.wall = readDate env card := by
  cases hdate : card.fixedDateAt with
  | none =>
    rw [hdate] at h
    refine ⟨lastDate, isoUtc_lastDate.trans (pure_eq_ok.mp h), ?_⟩
    rw [readDate, hdate]
    rfl
  | some t =>
    rw [hdate] at h
    obtain ⟨utc, hutc, h⟩ := bind_eq_ok.mp h
    refine ⟨utc, pure_eq_ok.mp h, ?_⟩
    rw [readDate, hdate]
    exact utcWall_eq_wall hutc

/-! ### The order of the keys -/

theorem lex_lt_iff {α β α' β' : Type*} [LT α] [LT β] [LT α'] [LT β'] {a b : α} {x y : β} {a' b' : α'}
    {x' y' : β'} (hlt : a < b ↔ a' < b') (heq : a = b ↔ a' = b') (h : x < y ↔ x' < y') :
    toLex (a, x) < toLex (b, y) ↔ toLex (a', x') < toLex (b', y') := by
  rw [Prod.Lex.toLex_lt_toLex, Prod.Lex.toLex_lt_toLex, hlt, heq, h]

/-- Two parts in front may be taken together. -/
theorem lex_lt_assoc {α β γ : Type*} [LT α] [LT β] [LT γ] {a a' : α} {b b' : β} {x x' : γ} :
    toLex (a, toLex (b, x)) < toLex (a', toLex (b', x')) ↔
      toLex (toLex (a, b), x) < toLex (toLex (a', b'), x') := by
  simp only [Prod.Lex.toLex_lt_toLex, EmbeddingLike.apply_eq_iff_eq, Prod.mk.injEq]
  tauto

/-- **Ranking keys are in the order of what they are read from.** -/
theorem rankingKey_lt_iff {policy : PortfolioPolicy env.unicode} {asOf : DateTime}
    {c d : WorkCandidate env.unicode} {s t : DateTime} {k l : RankingKey}
    (hs : c.readyAt = some s) (ht : d.readyAt = some t) (hs' : s.isAware = true)
    (ht' : t.isAware = true) (hk : rankingKey c s policy asOf = .ok k)
    (hl : rankingKey d t policy asOf = .ok l) :
    k < l ↔ readKey env c policy asOf < readKey env d policy asOf := by
  obtain ⟨fixed, hfixed, hk⟩ := bind_eq_ok.mp hk
  obtain ⟨ready, hready, hk⟩ := bind_eq_ok.mp hk
  obtain ⟨fixed', hfixed', hl⟩ := bind_eq_ok.mp hl
  obtain ⟨ready', hready', hl⟩ := bind_eq_ok.mp hl
  obtain ⟨date, rfl, hdate⟩ := exists_fixedDateText hfixed
  obtain ⟨date', rfl, hdate'⟩ := exists_fixedDateText hfixed'
  have hwall := (utcWall_eq_wall hready).trans (utcWall_eq_instant hs')
  have hwall' := (utcWall_eq_wall hready').trans (utcWall_eq_instant ht')
  rw [← pure_eq_ok.mp hk, ← pure_eq_ok.mp hl, readKey, readKey, restKey, restKey, tier, tier, tailKey,
    tailKey, hs, ht, Option.map_some, Option.map_some, ← hdate, ← hdate', ← hwall, ← hwall']
  refine lex_lt_iff Iff.rfl Iff.rfl (lex_lt_assoc.trans (lex_lt_iff Iff.rfl Iff.rfl ?_))
  refine lex_lt_iff DateTime.isoUtc_lt_iff DateTime.isoUtc_eq_iff ?_
  refine lex_lt_iff (DateTime.isoUtc_lt_iff.trans ?_) (DateTime.isoUtc_eq_iff.trans ?_) Iff.rfl
  · exact WithTop.coe_lt_coe.symm
  · exact WithTop.coe_inj.symm

/-! ### Where the orders differ -/

variable {policy : PortfolioPolicy u} {asOf : DateTime} {c d : WorkCandidate u}

/-- Two cards between which human order, class and unlocked cards do not decide. -/
def SameTier (c d : WorkCandidate u) (policy : PortfolioPolicy u) (asOf : DateTime) : Prop :=
  c.humanOrder = d.humanOrder ∧ tier c policy asOf = tier d policy asOf

/-- What makes a machine rank the first of two cards before the second one although it is not
declared to come first. -/
inductive Clash (env : Env) (policy : PortfolioPolicy u) (asOf : DateTime) (c d : WorkCandidate u) :
    Prop
  /-- A human order that is not below the one that stands for none. -/
  | order (n : ℕ) (absent : c.humanOrder = none) (present : d.humanOrder = some n)
    (beyond : lastOrder < n ∨ n = lastOrder ∧
      restKey (readDate env c) c policy asOf < restKey (readDate env d) d policy asOf)
  /-- A date that is not before the one that stands for none. -/
  | date (t : DateTime) (same : SameTier c d policy asOf) (absent : c.fixedDateAt = none)
    (present : d.fixedDateAt = some t)
    (beyond : lastSecond < utcWall env t ∨ utcWall env t = lastSecond ∧
      tailKey c policy < tailKey d policy)
  /-- Two dates of which one does not know its offset. -/
  | naive (s t : DateTime) (same : SameTier c d policy asOf) (first : c.fixedDateAt = some s)
    (second : d.fixedDateAt = some t) (unknown : s.isAware = false ∨ t.isAware = false)
    (differ : momentOf s ≠ momentOf t)

/-- Dates of one moment are read alike. -/
theorem utcWall_congr {s t : DateTime} (h : momentOf s = momentOf t) :
    utcWall env s = utcWall env t := by
  cases hs : s.isAware with
  | true =>
    cases ht : t.isAware with
    | true =>
      rw [momentOf_eq_instant hs, momentOf_eq_instant ht] at h
      rw [utcWall_eq_instant hs, utcWall_eq_instant ht, Moment.instant.inj h]
    | false =>
      rw [momentOf_eq_instant hs, momentOf_eq_wall ht] at h
      cases h
  | false =>
    cases ht : t.isAware with
    | true =>
      rw [momentOf_eq_wall hs, momentOf_eq_instant ht] at h
      cases h
    | false =>
      rw [momentOf_eq_wall hs, momentOf_eq_wall ht] at h
      rw [utcWall, utcWall, Moment.wall.inj h, Option.isSome_eq_false_iff.mp hs |>
        Option.isNone_iff_eq_none.mp, Option.isSome_eq_false_iff.mp ht |>
        Option.isNone_iff_eq_none.mp]

theorem keys_lt_iff {α β : Type*} [LT α] [LT β] {a b : α} {x y : β} :
    toLex (a, restKey x c policy asOf) < toLex (b, restKey y d policy asOf) ↔
      a < b ∨ a = b ∧ (tier c policy asOf < tier d policy asOf ∨
        tier c policy asOf = tier d policy asOf ∧
          (x < y ∨ x = y ∧ tailKey c policy < tailKey d policy)) := by
  rw [Prod.Lex.toLex_lt_toLex, restKey, restKey, Prod.Lex.toLex_lt_toLex, Prod.Lex.toLex_lt_toLex]

/-- A pair that clashes is not in the declared order. -/
theorem not_declaredKey_lt (h : Clash env policy asOf c d) :
    ¬ declaredKey c policy asOf < declaredKey d policy asOf := by
  rw [declaredKey, declaredKey, keys_lt_iff]
  cases h with
  | order n absent present beyond =>
    rw [absent, present]
    rintro (hlt | ⟨heq, -⟩)
    · exact not_top_lt hlt
    · cases heq
  | date t same absent present beyond =>
    rw [same.1, same.2, absent, present]
    rintro (hlt | ⟨-, hlt | ⟨-, hlt | ⟨heq, -⟩⟩⟩)
    · exact lt_irrefl _ hlt
    · exact lt_irrefl _ hlt
    · exact not_top_lt hlt
    · cases heq
  | naive s t same first second unknown differ =>
    rw [same.1, same.2, first, second]
    rintro (hlt | ⟨-, hlt | ⟨-, hlt | ⟨heq, -⟩⟩⟩)
    · exact lt_irrefl _ hlt
    · exact lt_irrefl _ hlt
    · obtain ⟨i, j, hi, hj, -⟩ := Moment.exists_of_lt (WithTop.coe_lt_coe.mp hlt)
      rcases unknown with hs | ht
      · rw [momentOf_eq_wall hs] at hi
        cases hi
      · rw [momentOf_eq_wall ht] at hj
        cases hj
    · exact differ (WithTop.coe_inj.mp heq)

/-- The dates of two cards of one tier: where the cards do not clash, the read order of their dates
is the declared one. -/
theorem dates_lt (same : SameTier c d policy asOf) (hclash : ¬ Clash env policy asOf c d)
    (h : readDate env c < readDate env d ∨
      readDate env c = readDate env d ∧ tailKey c policy < tailKey d policy) :
    absentLast (c.fixedDateAt.map momentOf) < absentLast (d.fixedDateAt.map momentOf) ∨
      absentLast (c.fixedDateAt.map momentOf) = absentLast (d.fixedDateAt.map momentOf) ∧
        tailKey c policy < tailKey d policy := by
  rw [readDate, readDate] at h
  cases hc : c.fixedDateAt with
  | none =>
    rw [hc] at h
    cases hd : d.fixedDateAt with
    | none =>
      rw [hd] at h
      rcases h with h | ⟨-, htail⟩
      · exact absurd h (lt_irrefl _)
      · exact .inr ⟨rfl, htail⟩
    | some t =>
      rw [hd] at h
      -- A missing date is read as the year 9999, so only a card of that very time can come behind
      -- it: a clash.
      exact absurd (Clash.date t same hc hd (h.imp_right fun ⟨heq, htail⟩ => ⟨heq.symm, htail⟩))
        hclash
  | some s =>
    rw [hc] at h
    cases hd : d.fixedDateAt with
    | none => exact .inl (WithTop.coe_lt_top _)
    | some t =>
      rw [hd] at h
      simp only [Option.map_some, Option.getD_some] at h
      -- Two dates: one moment has one reading, and two moments are apart unless one of them is
      -- naive.
      by_cases heq : momentOf s = momentOf t
      · rw [utcWall_congr heq] at h
        rcases h with h | ⟨-, htail⟩
        · exact absurd h (lt_irrefl _)
        · exact .inr ⟨congrArg WithTop.some heq, htail⟩
      · have haware : s.isAware = true ∧ t.isAware = true := by
          by_contra hunknown
          rw [not_and_or, Bool.not_eq_true, Bool.not_eq_true] at hunknown
          exact hclash (.naive s t same hc hd hunknown heq)
        rw [utcWall_eq_instant haware.1, utcWall_eq_instant haware.2] at h
        rw [momentOf_eq_instant haware.1, momentOf_eq_instant haware.2] at heq
        refine .inl (WithTop.coe_lt_coe.mpr ?_)
        rw [momentOf_eq_instant haware.1, momentOf_eq_instant haware.2, Moment.instant_lt_instant]
        rcases h with h | ⟨h, -⟩
        · exact h
        · exact absurd (congrArg Moment.instant h) heq

/-- **Where the orders differ**: of two cards the machine ranks the first one first, and it is
declared to come first unless they clash. -/
theorem declaredKey_lt_iff (h : readKey env c policy asOf < readKey env d policy asOf) :
    declaredKey c policy asOf < declaredKey d policy asOf ↔ ¬ Clash env policy asOf c d := by
  refine ⟨fun hlt hclash => not_declaredKey_lt hclash hlt, fun hclash => ?_⟩
  rw [readKey, readKey] at h
  -- Below the human order the tiers are compared alike, and within a tier the dates.
  have hrest : c.humanOrder = d.humanOrder →
      restKey (readDate env c) c policy asOf < restKey (readDate env d) d policy asOf →
        declaredKey c policy asOf < declaredKey d policy asOf := by
    intro hhuman hlt
    rw [restKey, restKey, Prod.Lex.toLex_lt_toLex, Prod.Lex.toLex_lt_toLex] at hlt
    refine keys_lt_iff.mpr (.inr ⟨congrArg absentLast hhuman,
      hlt.imp_right fun ⟨htier, hdates⟩ => ⟨htier, ?_⟩⟩)
    exact dates_lt ⟨hhuman, htier⟩ hclash hdates
  -- The read keys differ in the human order, or agree in it and differ behind.
  rcases Prod.Lex.toLex_lt_toLex.mp h with horder | ⟨horder, hlt⟩
  · dsimp only at horder
    cases hc : c.humanOrder with
    | none =>
      rw [hc] at horder
      cases hd : d.humanOrder with
      | none =>
        rw [hd] at horder
        exact absurd horder (lt_irrefl _)
      | some n =>
        rw [hd] at horder
        -- A missing order is read as a number, so a card of a greater one is wrongly behind it.
        exact absurd (Clash.order n hc hd (.inl horder)) hclash
    | some m =>
      rw [hc] at horder
      rw [declaredKey, declaredKey, hc]
      refine keys_lt_iff.mpr (.inl ?_)
      cases hd : d.humanOrder with
      | none => exact WithTop.coe_lt_top m
      | some n =>
        rw [hd] at horder
        exact WithTop.coe_lt_coe.mpr horder
  · dsimp only at horder hlt
    cases hc : c.humanOrder with
    | none =>
      cases hd : d.humanOrder with
      | none => exact hrest (hc.trans hd.symm) hlt
      | some n =>
        rw [hc, hd] at horder
        exact absurd (Clash.order n hc hd (.inr ⟨Eq.symm horder, hlt⟩)) hclash
    | some m =>
      cases hd : d.humanOrder with
      | none =>
        rw [declaredKey, declaredKey, hc, hd]
        exact keys_lt_iff.mpr (.inl (WithTop.coe_lt_top m))
      | some n =>
        rw [hc, hd] at horder
        have hhuman : c.humanOrder = d.humanOrder := by rw [hc, hd, show m = n from horder]
        exact hrest hhuman hlt

end SkCoord.Portfolio
