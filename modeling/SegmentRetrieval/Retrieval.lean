import SegmentRetrieval.Summary
import SegmentRetrieval.Verifier
import SegmentRetrieval.Window

/-! # A running retrieval

A retrieval ties the window to the verifier.  It handles one message at a time: a fetch that has
ended, or the wish to cancel.  What it does to the outside is the `Output` of the step: events for
the consumer, requests to be fetched, and fetches to be aborted.  After a terminal event, a cancel,
or an event that nobody takes any more, it has stopped and does nothing.
-/

namespace SegmentRetrieval

/-- A request for one segment: the slot that owns it and its own number. -/
structure Request where
  slot : Nat
  fetchId : FetchId
  segment : Nat
deriving DecidableEq, Repr

/-- What a retrieval reports to its consumer. -/
inductive Event where
  | segment (verified : Verified)
  | failed (error : RetrievalError)
  | completed (summary : Summary)
deriving DecidableEq, Repr

/-- Whether no event follows this one. -/
def Event.isTerminal : Event → Bool
  | .segment _ => false
  | .failed _ => true
  | .completed _ => true

/-- What a retrieval has to handle. -/
inductive Message where
  /-- The fetch of a request has ended. -/
  | completed (request : Request) (result : Except FetchFailure Data)
  | cancel

/-- What a step does to the outside, each list in order. -/
structure Output where
  events : List Event := []
  requests : List Request := []
  aborted : List Request := []
deriving DecidableEq, Repr

instance : Append Output where
  append first second :=
    ⟨first.events ++ second.events, first.requests ++ second.requests,
     first.aborted ++ second.aborted⟩

/-- The state of a retrieval. -/
structure Retrieval where
  window : Window
  verifier : Verifier := {}
  /-- The live fetch of each slot. -/
  fetches : List (Option Request)
  /-- Payload bytes delivered so far. -/
  bytes : Nat := 0
  /-- How many more events the consumer takes before it is gone, if it ever leaves. -/
  room : Option Nat := none
  stopped : Bool := false
deriving DecidableEq, Repr

namespace Retrieval

/-- A retrieval that has not requested anything, with `size` slots. -/
def ofSize (size : Nat) : Retrieval :=
  { window := .ofSize size, fetches := List.replicate size none }

/-! ## The consumer -/

/-- Whether somebody takes the next event. -/
def listening (retrieval : Retrieval) : Bool :=
  retrieval.room != some 0

/-- The consumer leaves once it has taken so many more events, if not before. -/
def leaveAfter (retrieval : Retrieval) (events : Nat) : Retrieval :=
  { retrieval with room := some (retrieval.room.elim events (min events)) }

/-! ## Stopping -/

/-- Cancels every request and aborts every fetch. -/
def stop (retrieval : Retrieval) : Retrieval × Output :=
  ({ retrieval with
      window := retrieval.window.cancelAll.2
      fetches := retrieval.fetches.map fun _ => none
      stopped := true },
   { aborted := retrieval.fetches.filterMap id })

/-- Stops with a terminal event, which is lost where nobody listens. -/
def stopWith (retrieval : Retrieval) (event : Event) : Retrieval × Output :=
  let (stopped, output) := retrieval.stop
  (stopped, { output with events := if retrieval.listening then [event] else [] })

def fail (retrieval : Retrieval) (error : RetrievalError) : Retrieval × Output :=
  retrieval.stopWith (.failed error)

/-- Stops with the summary of what was delivered. -/
def complete (retrieval : Retrieval) (elapsed : Duration) : Retrieval × Output :=
  retrieval.stopWith (.completed ⟨retrieval.verifier.nextSegment, retrieval.bytes, elapsed⟩)

/-- Aborts the fetches of some slots. -/
def abort (retrieval : Retrieval) (slots : List Nat) : Retrieval × Output :=
  ({ retrieval with
      fetches := slots.foldl (fun fetches slot => fetches.set slot none) retrieval.fetches },
   { aborted := slots.filterMap fun slot => retrieval.fetches[slot]?.join })

/-! ## Requesting -/

/-- Requests a segment through a slot. -/
def issue (retrieval : Retrieval) (slot segment : Nat) : Retrieval × Output :=
  let (fetchId, window) := retrieval.window.bind slot segment
  let request : Request := ⟨slot, fetchId, segment⟩
  ({ retrieval with window, fetches := retrieval.fetches.set slot (some request) },
   { requests := [request], aborted := retrieval.fetches[slot]?.join.toList })

/-- Gives each of some free slots its next request, as long as there is one. -/
def fill (retrieval : Retrieval) : List Nat → Retrieval × Output
  | [] => (retrieval, {})
  | slot :: slots =>
    match retrieval.window.nextRequest with
    | (.exhausted, _) => (retrieval, {})
    | (.abort error, _) => retrieval.fail error
    | (.issue segment, window) =>
      let (retrieval, issued) := issue { retrieval with window } slot segment
      let (retrieval, others) := fill retrieval slots
      (retrieval, issued ++ others)

/-- The first requests, one for each slot. -/
def start (retrieval : Retrieval) : Retrieval × Output :=
  retrieval.fill (List.range retrieval.window.size)

/-! ## Handling messages -/

/-- Completes once every segment up to the final one is delivered, and else uses the free slot. -/
def advance (retrieval : Retrieval) (elapsed : Duration) (slot : Nat) : Retrieval × Output :=
  if retrieval.window.finalSegment.any (· < retrieval.verifier.nextSegment) then
    retrieval.complete elapsed
  else retrieval.fill [slot]

/-- Goes on after a packet that declares `declared` as the final segment; only the first such number
counts. -/
def learnFinal (retrieval : Retrieval) (elapsed : Duration) (slot : Nat) (declared : Option Nat) :
    Retrieval × Output :=
  match declared, retrieval.window.finalSegment with
  | some last, none =>
    match retrieval.window.learnFinal last with
    | (.error error, window) => fail { retrieval with window } error
    | (.ok canceled, window) =>
      let verifier := retrieval.verifier.discardBeyond last
      let (retrieval, aborted) := abort { retrieval with window, verifier } canceled
      let (retrieval, output) := retrieval.advance elapsed slot
      (retrieval, aborted ++ output)
  | _, _ => retrieval.advance elapsed slot

/-- Hands segments over one after another, and stops at the first that nobody takes.  The first result
says whether all were taken. -/
def deliver (retrieval : Retrieval) : List Verified → Bool × Retrieval × Output
  | [] => (true, retrieval, {})
  | verified :: rest =>
    let retrieval := { retrieval with bytes := Verified.addBytes retrieval.bytes verified }
    if retrieval.listening then
      let room := retrieval.room.map (· - 1)
      let (whole, retrieval, output) := deliver { retrieval with room } rest
      (whole, retrieval, { events := [.segment verified] } ++ output)
    else (false, retrieval.stop)

/-- Handles a packet received as `segment`: the segments it makes acceptable are delivered before an
error among them is reported. -/
def receive (retrieval : Retrieval) (elapsed : Duration) (slot segment : Nat) (data : Data) :
    Retrieval × Output :=
  let (submitted, verifier) := retrieval.verifier.submit segment data
  let retrieval := { retrieval with window := retrieval.window.markSucceeded slot, verifier }
  let (whole, retrieval, delivered) := retrieval.deliver submitted.verified
  if whole then
    let (retrieval, output) :=
      match submitted.error with
      | some error => retrieval.fail error
      | none => retrieval.learnFinal elapsed slot (data.finalSegment?.map UInt64.toNat)
    (retrieval, delivered ++ output)
  else (retrieval, delivered)

/-- Handles a fetch that gave up. -/
def giveUp (retrieval : Retrieval) (slot : Nat) (failure : FetchFailure) : Retrieval × Output :=
  match retrieval.window.onFailure slot failure with
  | (.fatal error, window) => fail { retrieval with window } error
  | (.proceed canceled, window) => abort { retrieval with window } canceled

/-- Handles the end of a fetch, which counts only while its request runs. -/
def finish (retrieval : Retrieval) (elapsed : Duration) (request : Request)
    (result : Except FetchFailure Data) : Retrieval × Output :=
  if retrieval.window.isCurrent request.slot request.fetchId then
    let retrieval := { retrieval with fetches := retrieval.fetches.set request.slot none }
    match result with
    | .ok data => retrieval.receive elapsed request.slot request.segment data
    | .error failure => retrieval.giveUp request.slot failure
  else (retrieval, {})

/-- A retrieval that waits for nothing would wait forever: it fails. -/
def failIfStalled (retrieval : Retrieval) : Retrieval × Output :=
  if ¬ retrieval.stopped ∧ retrieval.window.running = 0 then
    retrieval.fail (.stalled retrieval.verifier.nextSegment)
  else (retrieval, {})

/-- Handles one message, at a time `elapsed` after the start. -/
def handle (retrieval : Retrieval) (elapsed : Duration) (message : Message) : Retrieval × Output :=
  if retrieval.stopped then (retrieval, {})
  else
    match message with
    | .cancel => retrieval.stop
    | .completed request result =>
      let (retrieval, output) := retrieval.finish elapsed request result
      let (retrieval, stalled) := retrieval.failIfStalled
      (retrieval, output ++ stalled)

end Retrieval

end SegmentRetrieval
