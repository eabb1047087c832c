import SkCoord.Python.JsonText
import Mathlib.Data.Int.Log
import Mathlib.Data.Rat.Floor

/-!
# Dates and times

A `datetime` is a reading of the clock on a wall, with the offset of the wall from UTC if it knows it.
Two of them that do are compared by their instants, or by their walls where these are one zone;
`toUtc?` is `astimezone(timezone.utc)`, which has no reading for an instant outside the years 1 to
9999.
-/

namespace Python

/-- The microseconds of the years 1 to 9999. -/
def dateTimeSpan : ℤ := 3652059 * 86400000000

/-- `datetime`: the microseconds since the first of January of the year 1 as the wall shows them. -/
structure DateTime where
  wall : ℤ
  /-- `utcoffset()`, in microseconds. -/
  offset : Option ℤ := none
  /-- Which `tzinfo` it has. -/
  zone : ℕ := 0
  inSpan : 0 ≤ wall ∧ wall < dateTimeSpan := by decide
  deriving DecidableEq

namespace DateTime

/-- The time knows its offset. -/
def isAware (t : DateTime) : Bool := t.offset.isSome

/-- The microseconds in UTC; a time without an offset is taken as it stands. -/
def instant (t : DateTime) : ℤ := t.wall - t.offset.getD 0

/-- `s - t`, in microseconds; within one zone the walls are compared. -/
def gap (s t : DateTime) : ℤ :=
  if s.zone = t.zone then s.wall - t.wall else s.instant - t.instant

/-- `s < t`, `none` where Python raises a `TypeError`. -/
def lt? (s t : DateTime) : Option Bool :=
  if s.isAware = t.isAware then some (s.gap t < 0) else none

/-- `s <= t`, `none` where Python raises a `TypeError`. -/
def le? (s t : DateTime) : Option Bool :=
  if s.isAware = t.isAware then some (s.gap t ≤ 0) else none

/-- The reading in UTC. -/
def toUtc? (offset : ℤ) (t : DateTime) : Option DateTime :=
  if h : 0 ≤ t.wall - offset ∧ t.wall - offset < dateTimeSpan then
    some { wall := t.wall - offset, offset := some 0, inSpan := h }
  else none

/-! ### Seconds -/

/-- A number rounded to an integer, a tie to the even one. -/
def roundEven (q : ℚ) : ℤ :=
  if q - ⌊q⌋ < 1 / 2 ∨ (q - ⌊q⌋ = 1 / 2 ∧ ⌊q⌋ % 2 = 0) then ⌊q⌋ else ⌊q⌋ + 1

/-- The double that is nearest to a number of ordinary size. -/
def toDouble (q : ℚ) : ℚ :=
  let ulp := (2 : ℚ) ^ (Int.log 2 |q| - 52)
  if q = 0 then 0 else ulp * roundEven (q / ulp)

/-- `total_seconds()` of a number of microseconds. -/
def totalSeconds (micros : ℤ) : ℚ := toDouble (micros / 1000000)

/-! ### Texts -/

/-- The last decimal digits of a number, `width` of them. -/
def digits : ℕ → ℕ → List Char
  | 0, _ => []
  | width + 1, n => digits width (n / 10) ++ [digitChar (n % 10)]

/-- A leap year. -/
def isLeap (year : ℕ) : Bool := year % 4 = 0 && (year % 100 ≠ 0 || year % 400 = 0)

/-- The days of a year before a month. -/
def daysBeforeMonth (year month : ℕ) : ℕ :=
  [0, 0, 31, 59, 90, 120, 151, 181, 212, 243, 273, 304, 334].getD month 0 +
    if 2 < month && isLeap year then 1 else 0

/-- Year, month and day of a number of days since the first of January of the year 1. -/
def ymd (days : ℕ) : ℕ × ℕ × ℕ :=
  let n400 := days / 146097
  let n := days % 146097
  let n100 := n / 36524
  let n := n % 36524
  let n4 := n / 1461
  let n := n % 1461
  let n1 := n / 365
  let n := n % 365
  let year := n400 * 400 + 1 + n100 * 100 + n4 * 4 + n1
  if n1 = 4 ∨ n100 = 4 then (year - 1, 12, 31)
  else
    let month := (n + 50) / 32
    -- the estimate is the month or the one behind it
    let month := if daysBeforeMonth year month > n then month - 1 else month
    (year, month, n - daysBeforeMonth year month + 1)

/-- `YYYY-MM-DDTHH:MM:SS` of the wall. -/
def secondsText (t : DateTime) : List Char :=
  let seconds := (t.wall / 1000000).toNat
  let date := ymd (seconds / 86400)
  digits 4 date.1 ++ '-' :: digits 2 date.2.1 ++ '-' :: digits 2 date.2.2 ++
    'T' :: digits 2 (seconds % 86400 / 3600) ++ ':' :: digits 2 (seconds % 3600 / 60) ++
    ':' :: digits 2 (seconds % 60)

/-- The microseconds behind the second. -/
def micros (t : DateTime) : ℕ := (t.wall % 1000000).toNat

/-- `isoformat()` of a time in UTC. -/
def isoUtc (t : DateTime) : String :=
  String.ofList (t.secondsText ++ (if t.micros = 0 then [] else '.' :: digits 6 t.micros) ++
    "+00:00".toList)

/-- `isoformat(timespec="microseconds").replace("+00:00", "Z")` of a time in UTC. -/
def canonicalText (t : DateTime) : String :=
  String.ofList (t.secondsText ++ '.' :: digits 6 t.micros ++ ['Z'])

example : (⟨63871300861000002, some 0, 0, by decide⟩ : DateTime).canonicalText =
    "2025-01-01T04:01:01.000002Z" := by decide +kernel

/-! ### ASCII -/

/-- The characters of a text that all are ASCII. -/
def IsAscii (l : List Char) : Prop := ∀ c ∈ l, c.toNat < 128

theorem isAscii_digits : ∀ width n : ℕ, IsAscii (digits width n)
  | 0, _ => fun _ hc => absurd hc List.not_mem_nil
  | width + 1, n => by
    have hdigit : ∀ d < 10, (digitChar d).toNat < 128 := by decide
    intro c hc
    rcases List.mem_append.mp hc with hc | hc
    · exact isAscii_digits width (n / 10) c hc
    · rw [List.mem_singleton.mp hc]
      exact hdigit _ (Nat.mod_lt _ (by decide))

theorem isAscii_append {l m : List Char} (hl : IsAscii l) (hm : IsAscii m) : IsAscii (l ++ m) :=
  fun c hc => (List.mem_append.mp hc).elim (hl c) (hm c)

theorem isAscii_cons {c : Char} {l : List Char} (hc : c.toNat < 128) (hl : IsAscii l) :
    IsAscii (c :: l) := by
  intro d hd
  rcases List.mem_cons.mp hd with rfl | hd
  · exact hc
  · exact hl d hd

theorem isAscii_secondsText (t : DateTime) : IsAscii t.secondsText := by
  unfold secondsText
  simp only [List.append_assoc, List.cons_append]
  refine isAscii_append (isAscii_digits _ _) (isAscii_cons (by decide) ?_)
  refine isAscii_append (isAscii_digits _ _) (isAscii_cons (by decide) ?_)
  refine isAscii_append (isAscii_digits _ _) (isAscii_cons (by decide) ?_)
  refine isAscii_append (isAscii_digits _ _) (isAscii_cons (by decide) ?_)
  exact isAscii_append (isAscii_digits _ _) (isAscii_cons (by decide) (isAscii_digits _ _))

theorem isAscii_canonicalText (t : DateTime) : IsAscii t.canonicalText.toList := by
  rw [canonicalText, String.toList_ofList]
  refine isAscii_append (isAscii_append (isAscii_secondsText t) ?_)
    (isAscii_cons (by decide) fun _ hc => absurd hc List.not_mem_nil)
  exact isAscii_cons (by decide) (isAscii_digits _ _)

end DateTime

end Python
