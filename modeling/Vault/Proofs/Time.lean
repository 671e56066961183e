import Vault.Time

/-!
# Moving a timestamp

A timestamp that is moved by a duration should be the exact result, stopped at the end of the
range. It is not always. The duration is cut to the largest timestamp before it is used, and
then what was cut off is missing (`Vault.Duration.excess`), unless the result would have stopped
at the end of the range anyway.

The range is not even: from the epoch or later, the largest timestamp does not lead back to the
least one, and from before the epoch it does not lead on to the greatest. So a cut shows when
a timestamp of the epoch or later is moved back, or one from before the epoch is moved on, and
at no other time (`Vault.Timestamp.moves_fall_short_by_excess`).
-/

namespace Vault

namespace Duration

/-- The whole microseconds of a duration are its nanoseconds, rounded down. -/
theorem wholeMicros_eq_div (d : Duration) : d.wholeMicros = d.totalNanos / 1000 := by
  rw [wholeMicros, totalNanos]
  omega

/-- **What a duration has too much** for a timestamp to be moved by it, in whole microseconds. -/
def excess (d : Duration) : Int := max 0 ((d.wholeMicros : Int) - Timestamp.greatest)

theorem excess_eq_zero_iff (d : Duration) :
    d.excess = 0 ↔ (d.wholeMicros : Int) ≤ Timestamp.greatest := by
  rw [excess]
  omega

end Duration

namespace Timestamp

variable (t : Timestamp) (d : Duration)

/-- How far a duration moves a timestamp, and what it has too much, make up the duration. -/
theorem reach_eq_sub_excess : reach d = d.wholeMicros - d.excess := by
  rw [reach, Duration.excess]
  omega

/-- **Moved back**, a timestamp is later than it should be by what was cut off, but stops at the
least one. -/
theorem micros_back : (t.back d).micros =
    max least (t.micros - d.wholeMicros) + min d.excess (max 0 (t.micros + 1)) := by
  have hlow := t.least_le
  have hhigh := t.le_greatest
  rw [back, clamp, reach_eq_sub_excess]
  simp only [Duration.excess, greatest, least]
  omega

/-- **Moved on**, a timestamp is earlier than it should be by what was cut off, but stops at the
greatest one. -/
theorem micros_forward : (t.forward d).micros =
    min greatest (t.micros + d.wholeMicros) - min d.excess (max 0 (-t.micros)) := by
  have hlow := t.least_le
  have hhigh := t.le_greatest
  rw [forward, clamp, reach_eq_sub_excess]
  simp only [Duration.excess, greatest]
  omega

/-- **A timestamp falls short of where it should be by what is cut off the duration.** With the
exact number of whole microseconds in the duration, the result is the exact one, stopped at the
end of the range, but for a remainder: moved back it is too late, and moved on too early, by the
excess of the duration, as far as the range goes. So it is exact if the duration fits a
timestamp; and if it does not, moving back is exact only from before the epoch, and moving on
only from the epoch or later. -/
theorem moves_fall_short_by_excess :
    d.wholeMicros = d.totalNanos / 1000 ∧
    (t.back d).micros =
      max least (t.micros - d.wholeMicros) + min d.excess (max 0 (t.micros + 1)) ∧
    (t.forward d).micros =
      min greatest (t.micros + d.wholeMicros) - min d.excess (max 0 (-t.micros)) ∧
    ((t.back d).micros = max least (t.micros - d.wholeMicros) ↔
      (d.wholeMicros : Int) ≤ greatest ∨ t.micros < 0) ∧
    ((t.forward d).micros = min greatest (t.micros + d.wholeMicros) ↔
      (d.wholeMicros : Int) ≤ greatest ∨ 0 ≤ t.micros) := by
  -- the remainder is gone when nothing was cut off, or when the range leaves no room for it
  have hpositive : 0 ≤ d.excess := Int.le_max_left _ _
  refine ⟨d.wholeMicros_eq_div, t.micros_back d, t.micros_forward d, ?_, ?_⟩
  · rw [t.micros_back d, ← Duration.excess_eq_zero_iff]
    omega
  · rw [t.micros_forward d, ← Duration.excess_eq_zero_iff]
    omega

/-- **A timestamp does not always get to the end of the range**: moved back from the epoch by one
microsecond more than the largest timestamp, it should be the least one, and it is the one after
that. -/
theorem back_misses_least :
    (epoch.back ⟨9223372036854, 775808000⟩).micros = -(2 ^ 63 - 1) ∧
      max least (epoch.micros - (⟨9223372036854, 775808000⟩ : Duration).wholeMicros) =
        -(2 ^ 63) := by
  decide

end Timestamp

end Vault
