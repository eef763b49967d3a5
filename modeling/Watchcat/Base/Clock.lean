import Mathlib.Algebra.Order.Ring.Int
import Mathlib.Tactic.NormNum

/-!
# Instants, durations and saturating counters

A `DateTime<Utc>` is an integer number of nanoseconds since the Unix epoch and a
`Duration` an integer number of nanoseconds, so that differences and cutoffs are
integer arithmetic. The unsigned machine counters of the source are natural
numbers whose saturating operations stop at `2 ^ 64 - 1`.
-/

namespace Watchcat

/-- `Duration::seconds`. -/
def seconds (n : Int) : Int := n * 1000000000

/-- `Duration::days`. -/
def days (n : Int) : Int := seconds (n * 86400)

/-- An instant of the calendar; every date that can be written down is far inside this range. -/
def IsInstant (t : Int) : Prop := -seconds (2 ^ 61) < t ∧ t < seconds (2 ^ 61)

/-- `u64::MAX`, also `usize::MAX` on the supported targets. -/
def u64Max : Nat := 2 ^ 64 - 1

/-- `u32::MAX`. -/
def u32Max : Nat := 2 ^ 32 - 1

/-- `i64::MAX`. -/
def i64Max : Nat := 2 ^ 63 - 1

/-- No two instants are as far apart as the largest number of seconds. -/
theorem IsInstant.lt_add_seconds_i64Max {t t' : Int} (h : IsInstant t) (h' : IsInstant t') :
    t' < t + seconds i64Max := by
  unfold IsInstant seconds at h h'
  unfold seconds i64Max
  omega

/-- `u64::saturating_add`. -/
def saturatingAdd (a b : Nat) : Nat := min (a + b) u64Max

/-- `u64::saturating_mul`. -/
def saturatingMul (a b : Nat) : Nat := min (a * b) u64Max

/-- `u64::saturating_pow`. -/
def saturatingPow (a n : Nat) : Nat := min (a ^ n) u64Max

/-- Left-pad a decimal numeral with zeros to the given width. -/
def padded (width n : Nat) : String :=
  String.ofList (List.replicate (width - n.repr.length) '0') ++ n.repr

/-- Civil year, month and day of a day number counted from 1970-01-01. -/
def civilOfDays (z : Int) : Int × Nat × Nat :=
  let shifted := z + 719468
  let era := shifted.fdiv 146097
  let dayOfEra := (shifted - era * 146097).toNat
  let yearOfEra := (dayOfEra - dayOfEra / 1460 + dayOfEra / 36524 - dayOfEra / 146096) / 365
  let dayOfYear := dayOfEra - (365 * yearOfEra + yearOfEra / 4 - yearOfEra / 100)
  let monthShifted := (5 * dayOfYear + 2) / 153
  let month := if monthShifted < 10 then monthShifted + 3 else monthShifted - 9
  (era * 400 + yearOfEra + (if month ≤ 2 then 1 else 0), month,
    dayOfYear - (153 * monthShifted + 2) / 5 + 1)

/-- The first instant of the month of an instant. -/
def monthStart (t : Int) : Int :=
  let day := t.fdiv 86400000000000
  seconds ((day - ((civilOfDays day).2.2 - 1 : Int)) * 86400)

/-- The fractional seconds in the shortest of the widths three, six and nine. -/
def fractionText (nanos : Nat) : String :=
  if nanos = 0 then ""
  else if nanos % 1000000 = 0 then "." ++ padded 3 (nanos / 1000000)
  else if nanos % 1000 = 0 then "." ++ padded 6 (nanos / 1000)
  else "." ++ padded 9 nanos

/-- A year in four digits; one of no four digits has a sign. -/
def yearText (year : Int) : String :=
  if 0 ≤ year ∧ year ≤ 9999 then padded 4 year.toNat
  else (if year < 0 then "-" else "+") ++ padded 4 year.natAbs

/-- `Display` for `DateTime<Utc>`. -/
def displayTime (t : Int) : String :=
  let secs := t.fdiv 1000000000
  let date := civilOfDays (secs.fdiv 86400)
  let ofDay := (secs.fmod 86400).toNat
  yearText date.1 ++ "-" ++ padded 2 date.2.1 ++ "-" ++ padded 2 date.2.2 ++ " " ++
    padded 2 (ofDay / 3600) ++ ":" ++ padded 2 (ofDay / 60 % 60) ++ ":" ++
    padded 2 (ofDay % 60) ++ fractionText (t.fmod 1000000000).toNat ++ " UTC"

/-- The first instant of 2026-09-15 at noon is written in chrono's plain form. -/
example : displayTime (seconds 1789473600) = "2026-09-15 12:00:00 UTC" := by decide

end Watchcat
