import SegmentRetrieval.Backoff
import SegmentRetrieval.Proofs.Duration

/-! # How long a backoff is

A wait is its base times a power of two, held at the largest factor of 32 bits and at the longest duration
(`toNanos_retryDelay`), and so it never gets shorter with another retry or a longer base
(`delays_saturate`).  The wait after a congestion Nack doubles from one millisecond until it reaches ten
seconds, and `Backoff.total` adds up the waits of the first ones.
-/

namespace SegmentRetrieval.Backoff

/-! ## The factor -/

theorem factor_eq_min (count : Nat) : factor count = min (2 ^ count) (2 ^ 32 - 1) := by
  have size : UInt32.size = 2 ^ 32 := rfl
  rw [factor, size]
  split
  -- 31 is the last count whose power is below the largest number of 32 bits
  next small =>
    have fits : 2 ^ count ≤ 2 ^ 31 := Nat.pow_le_pow_right (by decide) (Nat.le_of_lt_succ small)
    rw [Nat.one_shiftLeft]
    omega
  next beyond =>
    have large : 2 ^ 32 ≤ 2 ^ count := Nat.pow_le_pow_right (by decide) (Nat.le_of_not_lt beyond)
    omega

theorem factor_le_factor {count later : Nat} (le : count ≤ later) : factor count ≤ factor later := by
  have power : 2 ^ count ≤ 2 ^ later := Nat.pow_le_pow_right (by decide) le
  rw [factor_eq_min, factor_eq_min]
  omega

/-! ## The wait before a retry -/

theorem toNanos_retryDelay (count : Nat) (base : Duration) :
    (retryDelay count base).toNanos =
      min (base.toNanos * min (2 ^ count) (2 ^ 32 - 1)) (2 ^ 64 * 10 ^ 9 - 1) := by
  have longest : Duration.max.toNanos = 2 ^ 64 * 10 ^ 9 - 1 := rfl
  rw [retryDelay, Duration.toNanos_saturatingMul, factor_eq_min, longest]

theorem retryDelay_le_retryDelay {count later : Nat} {base longer : Duration} (more : count ≤ later)
    (le : base ≤ longer) : retryDelay count base ≤ retryDelay later longer :=
  Duration.saturatingMul_le_saturatingMul le (factor_le_factor more)

/-! ## The wait after a congestion Nack -/

theorem toNanos_congestion (count : Nat) :
    (congestion count).toNanos = min (2 ^ count) 10000 * 10 ^ 6 := by
  have base : (Duration.ofMillis 1).toNanos = 10 ^ 6 := rfl
  have cap : maxCongestion.toNanos = 10000 * 10 ^ 6 := rfl
  rw [congestion, Duration.toNanos_min, toNanos_retryDelay, base, cap]
  omega

/-- The wait after the congestion Nack that follows `count` others, in milliseconds. -/
theorem toMillis_congestion (count : Nat) :
    (congestion count).toMillis = Min.min (1 <<< count) 10000 := by
  rw [Duration.toMillis, toNanos_congestion, Nat.one_shiftLeft]
  omega

/-- The waits after the first congestion Nacks together, in milliseconds: one, two, four and so on, but
none longer than ten seconds. -/
def total : Nat → Nat
  | 0 => 0
  | count + 1 => total count + Min.min (1 <<< count) 10000

/-! ## All waits -/

/-- In nanoseconds, the wait before a retry is the base times two to the power of the count, where the
factor stops at the largest number of 32 bits and the product at the longest duration.  It is never
shorter at a later retry or from a longer base.  After congestion it is two to the power of the count in
milliseconds, or ten seconds where these are less. -/
theorem delays_saturate (count : Nat) (base : Duration) :
    (retryDelay count base).Lasts
        (min (base.toNanos * min (2 ^ count) (2 ^ 32 - 1)) (2 ^ 64 * 10 ^ 9 - 1)) ∧
      (∀ (later : Nat) (longer : Duration), count ≤ later → base ≤ longer →
        retryDelay count base ≤ retryDelay later longer) ∧
      (congestion count).Lasts (min (2 ^ count) 10000 * 10 ^ 6) :=
  ⟨Duration.lasts_iff.mpr (toNanos_retryDelay count base),
    fun _ _ => retryDelay_le_retryDelay,
    Duration.lasts_iff.mpr (toNanos_congestion count)⟩

/-- One nanosecond less than `2 ^ 33` seconds. -/
def shortBase : Duration := ⟨8589934591, 999999999, Nat.lt_add_one 999999999⟩

/-- From a base one nanosecond short of `2 ^ 33` seconds, the wait after 31 retries is exact: the whole
seconds of the base leave room for what the nanoseconds carry over.  With the nanosecond added and one
retry more, the wait is the longest duration. -/
theorem delays_saturate_carried :
    (retryDelay 31 shortBase).Lasts 18446744073709551613852516352 ∧
      (31 ≤ 32 ∧ shortBase ≤ .ofSeconds 8589934592) ∧
      retryDelay 31 shortBase ≤ retryDelay 32 (.ofSeconds 8589934592) ∧
      (retryDelay 32 (.ofSeconds 8589934592)).Lasts 18446744073709551615999999999 := by
  obtain ⟨carried, monotone, _⟩ := delays_saturate 31 shortBase
  obtain ⟨saturated, _⟩ := delays_saturate 32 (.ofSeconds 8589934592)
  have later : 31 ≤ 32 := by decide
  have longer : shortBase ≤ .ofSeconds 8589934592 := by decide
  have room : min (shortBase.toNanos * min (2 ^ 31) (2 ^ 32 - 1)) (2 ^ 64 * 10 ^ 9 - 1) =
      18446744073709551613852516352 := by decide
  have full : min ((Duration.ofSeconds 8589934592).toNanos * min (2 ^ 32) (2 ^ 32 - 1))
      (2 ^ 64 * 10 ^ 9 - 1) = 18446744073709551615999999999 := by decide
  rw [room] at carried
  rw [full] at saturated
  exact ⟨carried, ⟨later, longer⟩, monotone 32 _ later longer, saturated⟩

end SegmentRetrieval.Backoff
