/-! # Durations

A duration is a count of seconds of 64 bits and a fraction counted in nanoseconds.  Multiplication
saturates at the longest duration.
-/

namespace SegmentRetrieval

/-- Seconds and a fraction of a second in nanoseconds. -/
structure Duration where
  seconds : UInt64
  nanos : Nat
  nanos_lt : nanos < 1000000000 := by decide
deriving DecidableEq, Repr

namespace Duration

def zero : Duration := ⟨0, 0, by decide⟩

/-- The longest duration. -/
def max : Duration := ⟨UInt64.ofNat (UInt64.size - 1), 999999999, by decide⟩

instance : Inhabited Duration := ⟨zero⟩

/-- The length of a duration in nanoseconds. -/
def toNanos (duration : Duration) : Nat :=
  duration.seconds.toNat * 1000000000 + duration.nanos

/-- A whole number of seconds. -/
def ofSeconds (seconds : UInt64) : Duration := ⟨seconds, 0, by decide⟩

/-- A whole number of milliseconds. -/
def ofMillis (millis : Nat) : Duration :=
  ⟨UInt64.ofNat (millis / 1000), millis % 1000 * 1000000, by omega⟩

/-- A whole number of nanoseconds. -/
def ofNanos (nanos : Nat) : Duration :=
  ⟨UInt64.ofNat (nanos / 1000000000), nanos % 1000000000, by omega⟩

/-- The whole milliseconds of a duration. -/
def toMillis (duration : Duration) : Nat :=
  duration.toNanos / 1000000

/-- The duration `factor` times over, or the longest one where 64 bits of seconds do not hold it. -/
def saturatingMul (duration : Duration) (factor : Nat) : Duration :=
  let nanos := duration.nanos * factor
  let seconds := duration.seconds.toNat * factor + nanos / 1000000000
  if seconds < UInt64.size then
    ⟨UInt64.ofNat seconds, nanos % 1000000000, Nat.mod_lt _ (by decide)⟩
  else max

/-- The shorter of two durations. -/
def min (a b : Duration) : Duration :=
  if a.toNanos ≤ b.toNanos then a else b

end Duration

end SegmentRetrieval
