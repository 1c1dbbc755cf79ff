import SegmentRetrieval.Pipeline

/-! # Sessions

A session is a pipeline together with its live fetches, driven from outside: by what the consumer
does, by the outcomes of open Interests, and by the passing of time.  An Interest stays open until
it is told its outcome; a fetch that backs off has none open.
-/

namespace SegmentRetrieval

/-- The fetch of a request that has not ended. -/
structure LiveFetch where
  request : Request
  fetch : Fetch
  /-- When the fetch expresses its next Interest, unless one is open. -/
  resumesAt : Option Nat := none
deriving DecidableEq, Repr

def LiveFetch.isOpen (live : LiveFetch) : Bool :=
  live.resumesAt.isNone

/-- A pipeline, its live fetches, and the time in milliseconds. -/
structure Session where
  pipeline : Pipeline
  live : List LiveFetch := []
  now : Nat := 0
  startedAt : Nat := 0
deriving DecidableEq, Repr

/-- What drives a session. -/
inductive Session.Action where
  | start
  | cancel
  /-- The open Interest for a segment ends. -/
  | reply (segment : Nat) (outcome : Outcome)
  | advance (millis : Nat)
  | dropEvents
  | dropPipeline

/-- What an action brings about at once: events, and the segments of the Interests expressed. -/
structure Session.Reaction where
  events : List Event := []
  expressed : List Nat := []
deriving DecidableEq, Repr

namespace Session

def elapsed (session : Session) : Duration :=
  .ofMillis (session.now - session.startedAt)

/-- The segments of the open Interests, ascending. -/
def openSegments (session : Session) : List Nat :=
  ((session.live.filter LiveFetch.isOpen).map fun live => live.request.segment).mergeSort

/-- The live fetch whose Interest for a segment is open. -/
def findOpen? (session : Session) (segment : Nat) : Option LiveFetch :=
  session.live.find? fun live => live.isOpen && live.request.segment == segment

/-- Lets the pipeline's step take effect: aborted fetches are gone, requested ones begin. -/
def settle (draws : FetchId → UInt32) (session : Session) (step : Pipeline × Output) : Session × Reaction :=
  let (pipeline, output) := step
  let kept := session.live.filter fun live => ! output.aborted.contains live.request
  let toLive (request : Request) : LiveFetch := { request, fetch := pipeline.fetch draws request }
  ({ session with pipeline, live := kept ++ output.requests.map toLive },
   { events := output.events, expressed := output.requests.map Request.segment })

/-- Puts the fetch of a request into another state. -/
def replace (session : Session) (live : LiveFetch) : Session :=
  { session with live := session.live.map fun other =>
      if other.request = live.request then live else other }

/-- Ends the Interest of a live fetch. -/
def resolve (draws : FetchId → UInt32) (session : Session) (live : LiveFetch) (outcome : Outcome) :
    Session × Reaction :=
  match live.fetch.answer (draws live.request.fetchId) outcome with
  | .finished result =>
    let others := session.live.filter fun other => other.request ≠ live.request
    settle draws { session with live := others }
      (session.pipeline.complete session.elapsed live.request result)
  | .again wait fetch =>
    if wait.toMillis = 0 then
      (session.replace { live with fetch }, { expressed := [live.request.segment] })
    else
      (session.replace { live with fetch, resumesAt := some (session.now + wait.toMillis) }, {})

/-- Moves the time forward and lets fetches go on whose waits are over. -/
def wait (session : Session) (millis : Nat) : Session × Reaction :=
  let now := session.now + millis
  let isDue (live : LiveFetch) : Bool := live.resumesAt.any (· ≤ now)
  let live := session.live.map fun live =>
    if isDue live then { live with resumesAt := none } else live
  ({ session with now, live },
   { expressed := (session.live.filter isDue).map fun live => live.request.segment })

/-- What an action does; `draws` gives the nonce that each fetch draws at it. -/
def act (draws : FetchId → UInt32) (session : Session) : Action → Session × Reaction
  | .start =>
    let startedAt := if session.pipeline.stage = .idle then session.now else session.startedAt
    settle draws { session with startedAt } session.pipeline.start
  | .cancel | .dropPipeline => session.settle draws session.pipeline.cancel
  | .reply segment outcome =>
    match session.findOpen? segment with
    | some live => session.resolve draws live outcome
    | none => (session, {})
  | .advance millis => session.wait millis
  | .dropEvents => ({ session with pipeline := session.pipeline.dropEvents 0 }, {})

end Session

end SegmentRetrieval
