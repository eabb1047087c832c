import SkCoord.Python.DateTime
import Mathlib.Data.Prod.Lex
import Mathlib.Data.String.Basic
import Mathlib.Order.Monotone.Basic

/-!
# Texts of times are in the order of the times

`isoUtc_lt_iff`: of two readings in UTC the earlier one has the smaller text, although `isoformat()`
leaves microseconds out when there are none.  A text is a list of fields of fixed widths, so this
comes down to the order of the dates: `dateKey_lt_succ`.
-/

namespace Python

namespace DateTime

/-! ### Fields of fixed widths -/

theorem append_lt_append {l m : List Char} (h : l < m) (hlen : l.length = m.length)
    (l' m' : List Char) : l ++ l' < m ++ m' := by
  induction l generalizing m with
  | nil =>
    rw [List.length_nil, eq_comm, List.length_eq_zero_iff] at hlen
    rw [hlen] at h
    exact absurd h (lt_irrefl _)
  | cons a l ih =>
    cases m with
    | nil => cases hlen
    | cons b m =>
      rw [List.cons_append, List.cons_append]
      rcases List.cons_lt_cons_iff.mp h with hab | ⟨hab, hlm⟩
      · exact List.cons_lt_cons_iff.mpr (.inl hab)
      · exact List.cons_lt_cons_iff.mpr (.inr ⟨hab, ih hlm (Nat.succ.inj hlen)⟩)

theorem append_lt_append_left {m m' : List Char} (l : List Char) (h : m < m') : l ++ m < l ++ m' := by
  induction l with
  | nil => exact h
  | cons a l ih => exact List.cons_lt_cons_iff.mpr (.inr ⟨rfl, ih⟩)

theorem length_digits : ∀ width n : ℕ, (digits width n).length = width
  | 0, _ => rfl
  | width + 1, n => by
    rw [digits, List.length_append, length_digits width (n / 10), List.length_singleton]

theorem digitChar_lt {m n : ℕ} (h : m < n) (hn : n < 10) : digitChar m < digitChar n := by
  have hall : ∀ n < 10, ∀ m < n, digitChar m < digitChar n := by decide
  exact hall n hn m h

/-- Numbers of one width are compared digit by digit. -/
theorem digits_lt_digits : ∀ {width m n : ℕ}, m < n → n < 10 ^ width →
    digits width m < digits width n
  | 0, m, n, h, hn => by
    rw [pow_zero] at hn
    omega
  | width + 1, m, n, h, hn => by
    rw [digits, digits]
    rw [pow_succ] at hn
    by_cases htens : m / 10 < n / 10
    · have hlt : digits width (m / 10) < digits width (n / 10) :=
        digits_lt_digits htens (by omega)
      exact append_lt_append hlt (by rw [length_digits, length_digits]) _ _
    · -- the tens agree, and the last digits decide
      have heq : m / 10 = n / 10 := by omega
      rw [heq]
      refine append_lt_append_left _ (List.cons_lt_cons_iff.mpr (.inl ?_))
      exact digitChar_lt (by omega) (by omega)

/-! ### Dates -/

/-- The year of a day, and the days of the year before it. -/
def yearDay (days : ℕ) : ℕ × ℕ :=
  let n400 := days / 146097
  let n := days % 146097
  let n100 := min 3 (n / 36524)
  let n := n - n100 * 36524
  let n4 := n / 1461
  let n := n % 1461
  let n1 := min 3 (n / 365)
  (n400 * 400 + n100 * 100 + n4 * 4 + n1 + 1, n - n1 * 365)

/-- The month and the day of a day of the year. -/
def monthDay (leap : Bool) (n : ℕ) : ℕ × ℕ :=
  let before (month : ℕ) : ℕ :=
    [0, 0, 31, 59, 90, 120, 151, 181, 212, 243, 273, 304, 334].getD month 0 +
      if 2 < month && leap then 1 else 0
  let month := (n + 50) / 32
  let month := if before month > n then month - 1 else month
  (month, n - before month + 1)

theorem isLeap_iff {year : ℕ} :
    isLeap year = true ↔ year % 4 = 0 ∧ (year % 100 ≠ 0 ∨ year % 400 = 0) := by
  simp [isLeap]

/-- A day by its cycles of 400, 100, 4 years and 1 year, and the days that are left.  Only the last
year of four has a day more, and that of a century only if it is the last one. -/
structure Cycles (days n400 n100 n4 n1 day : ℕ) : Prop where
  sum : days = n400 * 146097 + n100 * 36524 + n4 * 1461 + n1 * 365 + day
  centuries : n100 ≤ 3
  fours : n4 ≤ 24
  years : n1 ≤ 3
  rest : day < 365 ∨ day = 365 ∧ n1 = 3 ∧ (n4 ≠ 24 ∨ n100 = 3)

theorem Cycles.yearDay_eq {days n400 n100 n4 n1 day : ℕ} (h : Cycles days n400 n100 n4 n1 day) :
    yearDay days = (n400 * 400 + n100 * 100 + n4 * 4 + n1 + 1, day) := by
  obtain ⟨hsum, hcenturies, hfours, hyears, hrest⟩ := h
  have h400 : days / 146097 = n400 := by omega
  have hcentury : days % 146097 = n100 * 36524 + n4 * 1461 + n1 * 365 + day := by omega
  have h100 : min 3 (days % 146097 / 36524) = n100 := by omega
  have hfour : days % 146097 - n100 * 36524 = n4 * 1461 + n1 * 365 + day := by omega
  have h4 : (days % 146097 - n100 * 36524) / 1461 = n4 := by omega
  have hyear : (days % 146097 - n100 * 36524) % 1461 = n1 * 365 + day := by omega
  have h1 : min 3 ((n1 * 365 + day) / 365) = n1 := by omega
  have hday : n1 * 365 + day - n1 * 365 = day := by omega
  rw [yearDay, h400, h100, h4, hyear, h1, hday]

/-- A day is followed by the next one of its year, or by the first one of the next year. -/
theorem Cycles.succ {days n400 n100 n4 n1 day : ℕ} (h : Cycles days n400 n100 n4 n1 day) :
    Cycles (days + 1) n400 n100 n4 n1 (day + 1) ∨ Cycles (days + 1) n400 n100 n4 (n1 + 1) 0 ∨
      (n1 = 3 ∧ Cycles (days + 1) n400 n100 (n4 + 1) 0 0) ∨
      (n4 = 24 ∧ n1 = 3 ∧ Cycles (days + 1) n400 (n100 + 1) 0 0 0) ∨
      n100 = 3 ∧ n4 = 24 ∧ n1 = 3 ∧ Cycles (days + 1) (n400 + 1) 0 0 0 0 := by
  obtain ⟨hsum, hcenturies, hfours, hyears, hrest⟩ := h
  by_cases hyear : day + 1 < 365 ∨ day + 1 = 365 ∧ n1 = 3 ∧ (n4 ≠ 24 ∨ n100 = 3)
  · exact .inl ⟨by omega, hcenturies, hfours, hyears, hyear⟩
  by_cases hone : n1 < 3
  · exact .inr (.inl ⟨by omega, hcenturies, hfours, hone, by omega⟩)
  by_cases hfour : n4 < 24
  · exact .inr (.inr (.inl ⟨by omega, by omega, hcenturies, hfour, by omega, by omega⟩))
  by_cases hcentury : n100 < 3
  · exact .inr (.inr (.inr (.inl ⟨by omega, by omega, by omega, hcentury, by omega, by omega,
      by omega⟩)))
  · exact .inr (.inr (.inr (.inr ⟨by omega, by omega, by omega, by omega, by omega, by omega,
      by omega, by omega⟩)))

theorem exists_cycles (days : ℕ) : ∃ n400 n100 n4 n1 day, Cycles days n400 n100 n4 n1 day := by
  induction days with
  | zero => exact ⟨0, 0, 0, 0, 0, rfl, by omega, by omega, by omega, by omega⟩
  | succ days ih =>
    obtain ⟨n400, n100, n4, n1, day, h⟩ := ih
    rcases h.succ with h | h | ⟨-, h⟩ | ⟨-, -, h⟩ | ⟨-, -, -, h⟩ <;> exact ⟨_, _, _, _, _, h⟩

theorem yearDay_succ (days : ℕ) :
    yearDay (days + 1) = ((yearDay days).1, (yearDay days).2 + 1) ∨
      yearDay (days + 1) = ((yearDay days).1 + 1, 0) := by
  obtain ⟨n400, n100, n4, n1, day, h⟩ := exists_cycles days
  rw [h.yearDay_eq]
  rcases h.succ with hnext | hnext | ⟨hn1, hnext⟩ | ⟨hn4, hn1, hnext⟩ | ⟨hn100, hn4, hn1, hnext⟩
  · exact .inl hnext.yearDay_eq
  all_goals
    refine .inr (hnext.yearDay_eq.trans (Prod.mk.injEq .. ▸ ⟨?_, rfl⟩))
    omega

theorem Cycles.isLeap_iff {days n400 n100 n4 n1 day : ℕ} (h : Cycles days n400 n100 n4 n1 day) :
    isLeap (yearDay days).1 = true ↔ n1 = 3 ∧ (n4 ≠ 24 ∨ n100 = 3) := by
  obtain ⟨-, hcenturies, hfours, hyears, -⟩ := id h
  rw [h.yearDay_eq, DateTime.isLeap_iff]
  omega

/-- The last day of a leap year is caught before the month is looked for. -/
theorem Cycles.ymd_eq_last {days n400 n100 n4 n1 : ℕ} (h : Cycles days n400 n100 n4 n1 365) :
    ymd days = (n400 * 400 + n100 * 100 + n4 * 4 + n1 + 1, 12, 31) := by
  obtain ⟨hsum, hcenturies, hfours, hyears, hrest⟩ := h
  have h400 : days / 146097 = n400 := by omega
  rw [ymd]
  by_cases hlast : n4 = 24
  · have h100 : days % 146097 / 36524 = 4 := by omega
    have hzero : days % 146097 % 36524 = 0 := by omega
    rw [h400, h100, hzero]
    simp only [Nat.zero_div, Nat.zero_mod, or_true, if_true, Prod.mk.injEq, and_true]
    omega
  · have h100 : days % 146097 / 36524 = n100 := by omega
    have h4 : days % 146097 % 36524 / 1461 = n4 := by omega
    have h1 : days % 146097 % 36524 % 1461 / 365 = 4 := by omega
    rw [h400, h100, h4, h1]
    simp only [true_or, if_true, Prod.mk.injEq, and_true]
    omega

theorem Cycles.ymd_eq {days n400 n100 n4 n1 day : ℕ} (h : Cycles days n400 n100 n4 n1 day)
    (hday : day < 365) :
    ymd days = (n400 * 400 + n100 * 100 + n4 * 4 + n1 + 1,
      monthDay (isLeap (n400 * 400 + n100 * 100 + n4 * 4 + n1 + 1)) day) := by
  obtain ⟨hsum, hcenturies, hfours, hyears, hrest⟩ := h
  have h400 : days / 146097 = n400 := by omega
  have h100 : days % 146097 / 36524 = n100 := by omega
  have h4 : days % 146097 % 36524 / 1461 = n4 := by omega
  have h1 : days % 146097 % 36524 % 1461 / 365 = n1 := by omega
  have hrest : days % 146097 % 36524 % 1461 % 365 = day := by omega
  have hyear : n400 * 400 + 1 + n100 * 100 + n4 * 4 + n1 =
      n400 * 400 + n100 * 100 + n4 * 4 + n1 + 1 := by omega
  rw [ymd, h400, h100, h4, h1, hrest, hyear, if_neg (by omega)]
  rfl

theorem ymd_eq (days : ℕ) :
    ymd days = ((yearDay days).1, monthDay (isLeap (yearDay days).1) (yearDay days).2) := by
  obtain ⟨n400, n100, n4, n1, day, h⟩ := exists_cycles days
  have hleap := h.isLeap_iff
  rw [h.yearDay_eq] at hleap ⊢
  rcases h.rest with hday | ⟨rfl, hlast⟩
  · exact h.ymd_eq hday
  · have hmonth : monthDay true 365 = (12, 31) := by decide
    rw [h.ymd_eq_last, hleap.mpr hlast, hmonth]

/-- Within a year the later day has the later month or, in one month, the later number. -/
theorem monthDay_lt_succ {leap : Bool} {day : ℕ} (h : day + 1 < if leap then 366 else 365) :
    toLex (monthDay leap day) < toLex (monthDay leap (day + 1)) := by
  have hall : ∀ leap : Bool, ∀ day < 365, day + 1 < (if leap then 366 else 365) →
      (monthDay leap day).1 < (monthDay leap (day + 1)).1 ∨
        (monthDay leap day).1 = (monthDay leap (day + 1)).1 ∧
          (monthDay leap day).2 < (monthDay leap (day + 1)).2 := by
    decide +kernel
  have hday : day < 365 := by split at h <;> omega
  exact Prod.Lex.toLex_lt_toLex.mpr (hall leap day hday h)

/-- Year, month and day, the year first. -/
def dateKey (days : ℕ) : ℕ ×ₗ ℕ ×ₗ ℕ := toLex ((ymd days).1, toLex (ymd days).2)

theorem dateKey_lt_succ (days : ℕ) : dateKey days < dateKey (days + 1) := by
  rw [dateKey, dateKey, ymd_eq, ymd_eq]
  obtain ⟨n400, n100, n4, n1, day, h⟩ := exists_cycles (days + 1)
  rcases yearDay_succ days with hnext | hnext
  · rw [hnext]
    refine Prod.Lex.toLex_lt_toLex.mpr (.inr ⟨rfl, monthDay_lt_succ ?_⟩)
    -- the next day is one of this year
    have hleap := h.isLeap_iff
    rw [hnext] at hleap
    have hday : (yearDay days).2 + 1 = day := congrArg Prod.snd (hnext.symm.trans h.yearDay_eq)
    rcases h.rest with hrest | ⟨hrest, hlast⟩
    · split <;> omega
    · rw [if_pos (hleap.mpr hlast)]
      omega
  · rw [hnext]
    exact Prod.Lex.toLex_lt_toLex.mpr (.inl (Nat.lt_succ_self _))

theorem dateKey_strictMono : StrictMono dateKey := strictMono_nat_of_lt_succ dateKey_lt_succ

theorem year_lt {days : ℕ} (h : days < 3652059) : (ymd days).1 < 10 ^ 4 := by
  obtain ⟨n400, n100, n4, n1, day, hcycles⟩ := exists_cycles days
  rw [ymd_eq, hcycles.yearDay_eq]
  obtain ⟨hsum, hcenturies, hfours, hyears, hrest⟩ := hcycles
  omega

theorem monthDay_bound (days : ℕ) : (ymd days).2.1 < 10 ^ 2 ∧ (ymd days).2.2 < 10 ^ 2 := by
  have hall : ∀ leap : Bool, ∀ day < 366,
      (monthDay leap day).1 < 10 ^ 2 ∧ (monthDay leap day).2 < 10 ^ 2 := by
    decide +kernel
  obtain ⟨n400, n100, n4, n1, day, hcycles⟩ := exists_cycles days
  rw [ymd_eq, hcycles.yearDay_eq]
  refine hall _ day ?_
  have hrest := hcycles.rest
  omega

/-! ### Times -/

/-- `YYYY-MM-DD` of a day. -/
def dateText (days : ℕ) : List Char :=
  digits 4 (ymd days).1 ++ '-' :: digits 2 (ymd days).2.1 ++ '-' :: digits 2 (ymd days).2.2

/-- `THH:MM:SS` of a second of a day. -/
def clockText (seconds : ℕ) : List Char :=
  'T' :: digits 2 (seconds / 3600) ++ ':' :: digits 2 (seconds % 3600 / 60) ++
    ':' :: digits 2 (seconds % 60)

/-- The seconds of a time. -/
def seconds (t : DateTime) : ℕ := (t.wall / 1000000).toNat

theorem secondsText_eq (t : DateTime) :
    t.secondsText = dateText (t.seconds / 86400) ++ clockText (t.seconds % 86400) := by
  have hminutes : t.seconds % 86400 % 3600 = t.seconds % 3600 := by omega
  have hseconds : t.seconds % 86400 % 60 = t.seconds % 60 := by omega
  rw [dateText, clockText, hminutes, hseconds, secondsText]
  simp only [List.append_assoc, List.cons_append]
  rfl

theorem length_dateText (days : ℕ) : (dateText days).length = 10 := by
  simp [dateText, length_digits]

theorem length_clockText (seconds : ℕ) : (clockText seconds).length = 9 := by
  simp [clockText, length_digits]

theorem cons_lt_cons {c : Char} {l m : List Char} (h : l < m) : c :: l < c :: m :=
  List.cons_lt_cons_iff.mpr (.inr ⟨rfl, h⟩)

theorem dateText_lt {days days' : ℕ} (h : days < days') (hspan : days' < 3652059) :
    dateText days < dateText days' := by
  have hkey := dateKey_strictMono h
  have hbound := monthDay_bound days'
  rw [dateText, dateText]
  rcases Prod.Lex.toLex_lt_toLex.mp hkey with hyear | ⟨hyear, hkey⟩
  · have hlt := digits_lt_digits hyear (year_lt hspan)
    exact append_lt_append (append_lt_append hlt (by simp [length_digits]) _ _)
      (by simp [length_digits]) _ _
  · have hyear : (ymd days).1 = (ymd days').1 := hyear
    rw [hyear]
    rcases Prod.Lex.toLex_lt_toLex.mp hkey with hmonth | ⟨hmonth, hday⟩
    · have hlt := cons_lt_cons (c := '-') (digits_lt_digits hmonth hbound.1)
      exact append_lt_append (append_lt_append_left _ hlt) (by simp [length_digits]) _ _
    · rw [hmonth]
      exact append_lt_append_left _ (cons_lt_cons (digits_lt_digits hday hbound.2))

theorem clockText_lt {seconds seconds' : ℕ} (h : seconds < seconds') (hday : seconds' < 86400) :
    clockText seconds < clockText seconds' := by
  rw [clockText, clockText]
  by_cases hhour : seconds / 3600 < seconds' / 3600
  · have hbound : seconds' / 3600 < 10 ^ 2 := by omega
    have hlt := cons_lt_cons (c := 'T') (digits_lt_digits hhour hbound)
    exact append_lt_append (append_lt_append hlt (by simp [length_digits]) _ _)
      (by simp [length_digits]) _ _
  · have hhour : seconds / 3600 = seconds' / 3600 := by omega
    rw [hhour]
    by_cases hminute : seconds % 3600 / 60 < seconds' % 3600 / 60
    · have hbound : seconds' % 3600 / 60 < 10 ^ 2 := by omega
      have hlt := cons_lt_cons (c := ':') (digits_lt_digits hminute hbound)
      exact append_lt_append (append_lt_append_left _ hlt) (by simp [length_digits]) _ _
    · have hminute : seconds % 3600 / 60 = seconds' % 3600 / 60 := by omega
      rw [hminute]
      refine append_lt_append_left _ (cons_lt_cons (digits_lt_digits ?_ ?_)) <;> omega

/-- A time without microseconds has the smallest text of its second: `+` comes before `.`. -/
theorem micros_lt {m n : ℕ} (h : m < n) (hn : n < 10 ^ 6) (zone : List Char) :
    (if m = 0 then [] else '.' :: digits 6 m) ++ '+' :: zone <
      (if n = 0 then [] else '.' :: digits 6 n) ++ '+' :: zone := by
  rw [if_neg (show n ≠ 0 by omega)]
  by_cases hm : m = 0
  · rw [if_pos hm]
    exact List.cons_lt_cons_iff.mpr (.inl (by decide))
  · rw [if_neg hm]
    exact append_lt_append (cons_lt_cons (digits_lt_digits h hn)) (by simp [length_digits]) _ _

/-- **The earlier time has the smaller text.** -/
theorem isoUtc_lt {s t : DateTime} (h : s.wall < t.wall) : s.isoUtc < t.isoUtc := by
  have hspan := t.inSpan.2
  have hstart := s.inSpan.1
  rw [dateTimeSpan] at hspan
  have hzone : "+00:00".toList = ['+', '0', '0', ':', '0', '0'] := by decide
  rw [String.lt_iff_toList_lt, isoUtc, isoUtc, hzone, String.toList_ofList, String.toList_ofList,
    List.append_assoc, List.append_assoc]
  by_cases hseconds : s.seconds = t.seconds
  · have htext : s.secondsText = t.secondsText := by rw [secondsText_eq, secondsText_eq, hseconds]
    have hmicros : s.micros < t.micros := by
      rw [seconds, seconds] at hseconds
      rw [micros, micros]
      omega
    have hbound : t.micros < 10 ^ 6 := by
      rw [micros]
      omega
    rw [htext]
    exact append_lt_append_left _ (micros_lt hmicros hbound _)
  · have hlt : s.seconds < t.seconds := by
      rw [seconds, seconds] at hseconds ⊢
      omega
    have hbound : t.seconds < 3652059 * 86400 := by
      rw [seconds]
      omega
    refine append_lt_append ?_ (by simp [secondsText_eq, length_dateText, length_clockText]) _ _
    rw [secondsText_eq, secondsText_eq]
    by_cases hdays : s.seconds / 86400 < t.seconds / 86400
    · exact append_lt_append (dateText_lt hdays (by omega))
        (by simp [length_dateText]) _ _
    · have hdays : s.seconds / 86400 = t.seconds / 86400 := by omega
      rw [hdays]
      exact append_lt_append_left _ (clockText_lt (by omega) (Nat.mod_lt _ (by decide)))

theorem isoUtc_of_wall_eq {s t : DateTime} (h : s.wall = t.wall) : s.isoUtc = t.isoUtc := by
  rw [isoUtc, isoUtc, secondsText_eq, secondsText_eq, seconds, seconds, micros, micros, h]

/-- **Texts are in the order of the times.** -/
theorem isoUtc_lt_iff {s t : DateTime} : s.isoUtc < t.isoUtc ↔ s.wall < t.wall := by
  refine ⟨fun h => ?_, isoUtc_lt⟩
  rcases lt_trichotomy s.wall t.wall with hlt | heq | hgt
  · exact hlt
  · rw [isoUtc_of_wall_eq heq] at h
    exact absurd h (lt_irrefl _)
  · exact absurd h (lt_asymm (isoUtc_lt hgt))

theorem isoUtc_eq_iff {s t : DateTime} : s.isoUtc = t.isoUtc ↔ s.wall = t.wall := by
  refine ⟨fun h => ?_, isoUtc_of_wall_eq⟩
  rcases lt_trichotomy s.wall t.wall with hlt | heq | hgt
  · exact absurd h (isoUtc_lt hlt).ne
  · exact heq
  · exact absurd h.symm (isoUtc_lt hgt).ne

end DateTime

end Python
