import SegmentRetrieval.Packet.Interest
import SegmentRetrieval.Retrieval

/-! # Pipelines

A pipeline is a retrieval with a prefix, options and a life: it is created idle, runs once, and
stops by itself or when it is canceled.  Starting a pipeline that is not idle does nothing.
-/

namespace SegmentRetrieval

inductive Stage where
  | idle
  | running
  | stopped
deriving DecidableEq, Repr

structure Pipeline where
  /-- The name whose segments are retrieved. -/
  base : Name
  options : Options
  stage : Stage := .idle
  retrieval : Retrieval
deriving DecidableEq, Repr

/-- The fetch of a request, before its first Interest; `draws` gives the nonce that each fetch draws. -/
def Pipeline.fetch (pipeline : Pipeline) (draws : FetchId → UInt32) (request : Request) : Fetch :=
  { interest :=
      { name := pipeline.base.appendSegment (UInt64.ofNat request.segment)
        mustBeFresh := pipeline.options.mustBeFresh
        lifetime := pipeline.options.lifetime
        nonce := draws request.fetchId }
    limit := pipeline.options.retryLimit }

namespace Pipeline

/-- An idle pipeline, unless the options are outside their ranges. -/
def create (base : Name) (options : Options) : Except RetrievalError Pipeline :=
  match options.validate with
  | .error error => .error (.invalidOptions error)
  | .ok () => .ok { base, options, retrieval := .ofSize options.windowSize }

/-- Whether the pipeline has been started and has not stopped since. -/
def isRunning (pipeline : Pipeline) : Bool :=
  pipeline.stage == .running && ! pipeline.retrieval.stopped

/-- Whether no event can follow any more. -/
def hasEnded (pipeline : Pipeline) : Bool :=
  pipeline.stage == .stopped || pipeline.retrieval.stopped

/-- Makes the first requests, if the pipeline is idle. -/
def start (pipeline : Pipeline) : Pipeline × Output :=
  match pipeline.stage with
  | .idle =>
    let (retrieval, output) := pipeline.retrieval.start
    ({ pipeline with stage := .running, retrieval }, output)
  | _ => (pipeline, {})

/-- Handles the end of a fetch, if the pipeline runs. -/
def complete (pipeline : Pipeline) (elapsed : Duration) (request : Request)
    (result : Except FetchFailure Data) : Pipeline × Output :=
  match pipeline.stage with
  | .running =>
    let (retrieval, output) := pipeline.retrieval.handle elapsed (.completed request result)
    ({ pipeline with retrieval }, output)
  | _ => (pipeline, {})

/-- Stops the pipeline for good, without a terminal event. -/
def cancel (pipeline : Pipeline) : Pipeline × Output :=
  match pipeline.stage with
  | .running =>
    let (retrieval, output) := pipeline.retrieval.handle .zero .cancel
    ({ pipeline with stage := .stopped, retrieval }, output)
  | _ => ({ pipeline with stage := .stopped }, {})

/-- The consumer takes so many more events at most. -/
def dropEvents (pipeline : Pipeline) (taken : Nat) : Pipeline :=
  { pipeline with retrieval := pipeline.retrieval.leaveAfter taken }

end Pipeline

end SegmentRetrieval
