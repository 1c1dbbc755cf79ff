import SegmentRetrieval.Decimal
import SegmentRetrieval.Duration

/-! # The summary of a retrieval -/

namespace SegmentRetrieval

/-- What was delivered, and how long it took. -/
structure Summary where
  segments : Nat
  bytes : Nat
  elapsed : Duration
deriving DecidableEq, Repr

/-- A duration in seconds, as a double. -/
def Duration.toFloat (duration : Duration) : Float :=
  duration.seconds.toFloat + (UInt64.ofNat duration.nanos).toFloat / 1000000000.0

namespace Summary

/-- Payload bits a second; zero where no time has passed. -/
def goodput (summary : Summary) : Float :=
  let seconds := summary.elapsed.toFloat
  if seconds == 0.0 then 0.0 else (UInt64.ofNat (summary.bytes * 8)).toFloat / seconds

/-- One line: seconds with three places, kilobits a second with one. -/
def text (summary : Summary) : String :=
  toString summary.segments ++ " segments, " ++ toString summary.bytes ++ " bytes in "
    ++ Decimal.fixed 3 summary.elapsed.toFloat ++ "s, goodput "
    ++ Decimal.fixed 1 (summary.goodput / 1000.0) ++ " kbit/s"

end Summary

end SegmentRetrieval
