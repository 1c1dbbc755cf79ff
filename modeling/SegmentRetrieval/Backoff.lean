import SegmentRetrieval.Duration

/-! # Exponential backoff

The wait before a retry doubles with every retry, as long as the factor fits 32 bits.  After
congestion it starts at one millisecond and ends at ten seconds.
-/

namespace SegmentRetrieval.Backoff

/-- Two to the power of the count, or the largest number of 32 bits where that is smaller. -/
def factor (count : Nat) : Nat :=
  if count < 32 then 1 <<< count else UInt32.size - 1

/-- The wait before retry number `count`, doubled from `base` each time. -/
def retryDelay (count : Nat) (base : Duration) : Duration :=
  base.saturatingMul (factor count)

/-- The longest wait after congestion. -/
def maxCongestion : Duration := .ofSeconds 10

/-- The wait after the congestion Nack that follows `count` earlier ones. -/
def congestion (count : Nat) : Duration :=
  (retryDelay count (.ofMillis 1)).min maxCongestion

end SegmentRetrieval.Backoff
