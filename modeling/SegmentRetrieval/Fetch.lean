import SegmentRetrieval.Backoff
import SegmentRetrieval.Name.Uri
import SegmentRetrieval.Options
import SegmentRetrieval.Packet.Interest

/-! # Fetching one segment

A fetch expresses one Interest and repeats it with another nonce after a timeout, a duplicate Nack
or, once it has waited, a congestion Nack.  Timeouts and Nacks are counted apart, each against the
retry limit; a Nack of another kind ends the fetch.  Counts have 32 bits.
-/

namespace SegmentRetrieval

/-- Why a fetch gave up. -/
inductive FetchFailure where
  | timeoutRetriesExhausted (name : Name) (retries : Nat)
  | nackRetriesExhausted (name : Name) (retries : Nat)
  | nacked (name : Name) (reason : NackReason)
deriving DecidableEq, Repr

def FetchFailure.message : FetchFailure → String
  | .timeoutRetriesExhausted name retries =>
    s!"Reached the maximum number of timeout retries ({retries}) while retrieving data for "
      ++ name.toUri
  | .nackRetriesExhausted name retries =>
    s!"Reached the maximum number of nack retries ({retries}) while retrieving data for "
      ++ name.toUri
  | .nacked name reason =>
    "Could not retrieve data for " ++ name.toUri ++ ", reason: " ++ reason.text

/-- A fetch whose current Interest waits for its outcome. -/
structure Fetch where
  interest : Interest
  limit : RetryLimit
  timeouts : UInt32 := 0
  nacks : UInt32 := 0
  /-- The congestion Nacks so far, which set the next wait. -/
  congestions : UInt32 := 0
deriving DecidableEq, Repr

namespace Fetch

/-- What follows the outcome of an Interest. -/
inductive Next where
  | finished (result : Except FetchFailure Data)
  | again (wait : Duration) (fetch : Fetch)

/-- One more, or the same where that does not fit 32 bits. -/
def saturatingSucc (count : UInt32) : UInt32 :=
  if count.toNat + 1 < UInt32.size then count + 1 else count

/-- The fetch with the Interest it expresses next. -/
def refreshed (fetch : Fetch) (draw : UInt32) : Fetch :=
  { fetch with interest := fetch.interest.refreshNonce draw }

/-- How often the Interest has been expressed again, as long as the counts fit. -/
def retries (fetch : Fetch) : Nat :=
  fetch.timeouts.toNat + fetch.nacks.toNat

/-- What the fetch does about the outcome of its Interest; `draw` is the nonce drawn for a next one.
A used up limit is reported before the reason of a Nack is looked at. -/
def answer (fetch : Fetch) (draw : UInt32) : Outcome → Next
  | .ok data => .finished (.ok data)
  | .error .timeout =>
    let timeouts := fetch.timeouts + 1
    if fetch.limit.allows timeouts.toNat then .again .zero { fetch.refreshed draw with timeouts }
    else .finished (.error (.timeoutRetriesExhausted fetch.interest.name fetch.timeouts.toNat))
  | .error (.nack reason) =>
    let nacks := fetch.nacks + 1
    if fetch.limit.allows nacks.toNat then
      match reason with
      | .duplicate => .again .zero { fetch.refreshed draw with nacks }
      | .congestion =>
        .again (Backoff.congestion fetch.congestions.toNat)
          { fetch.refreshed draw with nacks, congestions := saturatingSucc fetch.congestions }
      | reason => .finished (.error (.nacked fetch.interest.name reason))
    else .finished (.error (.nackRetriesExhausted fetch.interest.name fetch.nacks.toNat))

/-! ## A fetch from its first Interest to its result -/

/-- What a fetch did: the Interests it expressed and when, its result unless it waits for one more
outcome, and the time it took.  Times are in milliseconds. -/
structure Report where
  expressed : List (Nat × Interest)
  result : Option (Except FetchFailure Data)
  elapsed : Nat

/-- The fetch at time `now`, when its Interests meet the given outcomes at once and in order; `draws`
gives the nonce drawn for each retry. -/
def run (draws : Nat → UInt32) (fetch : Fetch) (now : Nat) : List Outcome → Report
  | [] => ⟨[(now, fetch.interest)], none, now⟩
  | outcome :: outcomes =>
    match fetch.answer (draws fetch.retries) outcome with
    | .finished result => ⟨[(now, fetch.interest)], some result, now⟩
    | .again wait next =>
      let report := next.run draws (now + wait.toMillis) outcomes
      { report with expressed := (now, fetch.interest) :: report.expressed }

end Fetch

end SegmentRetrieval
