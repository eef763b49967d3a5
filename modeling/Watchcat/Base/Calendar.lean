import Mathlib.Algebra.Order.Group.Int
import Watchcat.Base.Clock

/-!
# The calendar

Dates end about 262,000 years away from the epoch, and a number of seconds is a
duration only where its milliseconds fit a signed machine word. An operation that
leaves the calendar has no value here; in the source it panics.
-/

namespace Watchcat

/-- The first and the last date, some 262,000 years before and after the epoch. -/
structure Calendar where
  first : Int
  last : Int
  le_first : -seconds 8400000000000 ≤ first
  first_le : first ≤ -seconds 8200000000000
  le_last : seconds 8200000000000 ≤ last
  last_le : last ≤ seconds 8400000000000

/-- From the beginning of the year -262143 to the end of the year 262142. -/
def gregorian : Calendar where
  first := -seconds 8334601228800
  last := seconds 8210266876800 - 1
  le_first := by decide
  first_le := by decide
  le_last := by decide
  last_le := by decide

/-- The time of an ordinary clock: the years from 1970 to 2200. -/
def Ordinary (t : Int) : Prop := 0 ≤ t ∧ t < seconds 7289654400

/-- `Duration::seconds`. -/
def durationSeconds (n : Int) : Option Int :=
  if -(i64Max : Int) ≤ n * 1000 ∧ n * 1000 ≤ i64Max then some (seconds n) else none

namespace Calendar

variable (c : Calendar)

/-- A date of the calendar. -/
def date (t : Int) : Option Int := if c.first ≤ t ∧ t ≤ c.last then some t else none

/-- `now - Duration::seconds(n)`. -/
def secondsBefore (now n : Int) : Option Int :=
  (durationSeconds n).bind fun d => c.date (now - d)

/-- `start + Duration::seconds(n)`. -/
def secondsAfter (start n : Int) : Option Int :=
  (durationSeconds n).bind fun d => c.date (start + d)

/-- `now - Duration::days(n)`. -/
def daysBefore (now n : Int) : Option Int := c.secondsBefore now (n * 86400)

theorem date_ne_none_iff (t : Int) : c.date t ≠ none ↔ c.first ≤ t ∧ t ≤ c.last := by
  unfold date
  split <;> simp_all

theorem date_eq_some {t d : Int} (h : c.date t = some d) : d = t := by
  unfold date at h
  split at h
  · exact (Option.some.inj h).symm
  · cases h

/-- A date counted back is where plain arithmetic puts it. -/
theorem secondsBefore_eq_some {now n d : Int} (h : c.secondsBefore now n = some d) :
    d = now - seconds n := by
  obtain ⟨span, hspan, hdate⟩ := Option.bind_eq_some_iff.mp h
  unfold durationSeconds at hspan
  split at hspan
  · obtain rfl := Option.some.inj hspan
    exact c.date_eq_some hdate
  · cases hspan

/-- A date counted forward is where plain arithmetic puts it. -/
theorem secondsAfter_eq_some {start n d : Int} (h : c.secondsAfter start n = some d) :
    d = start + seconds n := by
  obtain ⟨span, hspan, hdate⟩ := Option.bind_eq_some_iff.mp h
  unfold durationSeconds at hspan
  split at hspan
  · obtain rfl := Option.some.inj hspan
    exact c.date_eq_some hdate
  · cases hspan

theorem secondsBefore_ne_none_iff (now n : Int) : c.secondsBefore now n ≠ none ↔
    (-(i64Max : Int) ≤ n * 1000 ∧ n * 1000 ≤ i64Max) ∧
      c.first ≤ now - seconds n ∧ now - seconds n ≤ c.last := by
  unfold secondsBefore durationSeconds
  split
  · rename_i h
    simpa [h] using c.date_ne_none_iff (now - seconds n)
  · rename_i h
    simp [h]

theorem secondsAfter_ne_none_iff (start n : Int) : c.secondsAfter start n ≠ none ↔
    (-(i64Max : Int) ≤ n * 1000 ∧ n * 1000 ≤ i64Max) ∧
      c.first ≤ start + seconds n ∧ start + seconds n ≤ c.last := by
  unfold secondsAfter durationSeconds
  split
  · rename_i h
    simpa [h] using c.date_ne_none_iff (start + seconds n)
  · rename_i h
    simp [h]

variable {c}

/-- Only the beginning of the calendar limits how far one can count back from a date. -/
theorem secondsBefore_of_positive {now n : Int} (hnow : now ≤ c.last) (hn : 0 < n)
    (hfirst : c.first ≤ now - seconds n) : c.secondsBefore now n ≠ none := by
  have hbegin := c.le_first
  have hend := c.last_le
  unfold seconds at *
  rw [secondsBefore_ne_none_iff]
  unfold seconds i64Max
  omega

/-- On an ordinary clock only the beginning of the calendar limits how far back one can count. -/
theorem secondsBefore_iff {now n : Int} (hnow : Ordinary now) (hn : 0 < n) :
    c.secondsBefore now n ≠ none ↔ c.first ≤ now - seconds n := by
  obtain ⟨hpast, hfuture⟩ := hnow
  have hfirst := c.le_first
  have hfirst' := c.first_le
  have hlast := c.le_last
  have hlast' := c.last_le
  unfold seconds at *
  rw [secondsBefore_ne_none_iff]
  unfold seconds i64Max
  omega

/-- On an ordinary clock only the end of the calendar limits a delay, also one that was cut down
to the largest machine number. -/
theorem secondsAfter_iff {start : Int} {n : Nat} (hstart : Ordinary start) :
    c.secondsAfter start (min n i64Max : Nat) ≠ none ↔ start + seconds n ≤ c.last := by
  obtain ⟨hpast, hfuture⟩ := hstart
  have hfirst := c.le_first
  have hfirst' := c.first_le
  have hlast := c.le_last
  have hlast' := c.last_le
  unfold seconds at *
  rw [secondsAfter_ne_none_iff]
  unfold seconds i64Max
  omega

end Calendar

end Watchcat
