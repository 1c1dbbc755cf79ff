import SegmentRetrieval.RetrievalError

/-! # The request window

A window has a fixed number of slots, each of which owns at most one request at a time.  It says
which segment is requested next, and which requests become pointless once a request has failed or
the final segment is known.  While the end is unknown a failed segment may lie past it, so the
failure is only remembered; the end decides later whether it was fatal.
-/

namespace SegmentRetrieval

/-- The number of a request, never used twice. -/
abbrev FetchId := Nat

inductive SlotState where
  | running
  | succeeded
  | failed
  | canceled
deriving DecidableEq, Repr

/-- The latest request of a slot. -/
structure Slot where
  segment : Nat
  fetchId : FetchId
  state : SlotState
deriving DecidableEq, Repr

def Slot.isRunning (slot : Slot) : Bool :=
  slot.state == .running

/-- Slots by index; a slot that never owned a request is empty. -/
abbrev Slots := List (Option Slot)

namespace Slots

/-- The running requests that satisfy `p`, by the indices of their slots in ascending order. -/
def runningWhere (p : Slot → Bool) (slots : Slots) : List Nat :=
  slots.zipIdx.filterMap fun (slot, index) =>
    if slot.any fun slot => slot.isRunning && p slot then some index else none

/-- Cancels the running requests that satisfy `p`. -/
def cancelWhere (p : Slot → Bool) (slots : Slots) : Slots :=
  slots.map fun slot => slot.map fun slot =>
    if slot.isRunning && p slot then { slot with state := .canceled } else slot

/-- Changes the state of the request in one slot, if there is one. -/
def setState (slots : Slots) (index : Nat) (state : SlotState) : Slots :=
  slots.modify index fun slot => slot.map fun slot => { slot with state }

end Slots

/-- The slots, the next segment to request, and what is known about the end. -/
structure Window where
  slots : Slots
  nextSegment : Nat := 0
  finalSegment : Option Nat := none
  /-- Some request failed while the end is unknown. -/
  hasFailure : Bool := false
  nextFetchId : FetchId := 0
deriving DecidableEq, Repr

/-- What a free slot does next. -/
inductive NextRequest where
  | issue (segment : Nat)
  /-- Every segment up to the final one has been requested. -/
  | exhausted
  | abort (error : RetrievalError)
deriving DecidableEq, Repr

/-- The effect of a failed request. -/
inductive FailureOutcome where
  | fatal (error : RetrievalError)
  /-- The retrieval goes on; the requests in these slots were canceled. -/
  | proceed (canceled : List Nat)
deriving DecidableEq, Repr

namespace Window

/-- A window of `size` empty slots. -/
def ofSize (size : Nat) : Window :=
  { slots := List.replicate size none }

def size (window : Window) : Nat :=
  window.slots.length

/-- The latest request of a slot. -/
def slot? (window : Window) (index : Nat) : Option Slot :=
  window.slots[index]?.join

/-- How many requests are running. -/
def running (window : Window) : Nat :=
  window.slots.countP fun slot => slot.any Slot.isRunning

/-- Whether a request still runs in its slot. -/
def isCurrent (window : Window) (index : Nat) (fetchId : FetchId) : Bool :=
  (window.slot? index).any fun slot => slot.fetchId == fetchId && slot.isRunning

/-! ## Requesting -/

/-- Chooses the segment to request next and takes its number. -/
def nextRequest (window : Window) : NextRequest × Window :=
  if window.hasFailure ∧ window.finalSegment = none then
    (.abort .finalSegmentNotFound, window)
  else if window.finalSegment.any (· < window.nextSegment) then (.exhausted, window)
  else (.issue window.nextSegment, { window with nextSegment := window.nextSegment + 1 })

/-- Puts a new request for `segment` into a slot. -/
def bind (window : Window) (index segment : Nat) : FetchId × Window :=
  (window.nextFetchId, { window with
    slots := window.slots.set index (some ⟨segment, window.nextFetchId, .running⟩)
    nextFetchId := window.nextFetchId + 1 })

/-- Puts a new request for `segment` into a slot, where the window has that slot. -/
def bind? (window : Window) (index segment : Nat) : Option (FetchId × Window) :=
  if index < window.size then some (window.bind index segment) else none

/-! ## Progress -/

def markSucceeded (window : Window) (index : Nat) : Window :=
  { window with slots := window.slots.setState index .succeeded }

/-- Whether a slot holds a failed request for a segment that the content has. -/
def failedWithin (last : Nat) (slot : Option Slot) : Bool :=
  slot.any fun slot => slot.state == .failed && slot.segment ≤ last

/-- Records the final segment; the first number told stays.  Running requests past it are canceled
and reported.  A failed request for a segment at or below it ends the retrieval; the slots from that
request on are left as they are. -/
def learnFinal (window : Window) (last : Nat) : Except RetrievalError (List Nat) × Window :=
  if window.finalSegment.isSome then (.ok [], window)
  else
    let past (slot : Slot) : Bool := last < slot.segment
    let sound : Slots := window.slots.takeWhile (! failedWithin last ·)
    let others : Slots := window.slots.dropWhile (! failedWithin last ·)
    let window := { window with
      slots := sound.cancelWhere past ++ others, finalSegment := some last, hasFailure := false }
    match others with
    | some slot :: _ => (.error (.segmentFailed slot.segment), window)
    | _ => (.ok (sound.runningWhere past), window)

/-- Records that the request in a slot gave up.  Where the end is known, the failure is fatal if
the content has the segment.  Where it is not, the requests for later segments are canceled, and
the retrieval goes on as long as a request for an earlier one runs. -/
def onFailure (window : Window) (index : Nat) (failure : FetchFailure) : FailureOutcome × Window :=
  match window.slot? index with
  | none => (.proceed [], window)
  | some slot =>
    let slots := window.slots.setState index .failed
    match window.finalSegment with
    | some last =>
      if slot.segment ≤ last then (.fatal (.fetch slot.segment failure), { window with slots })
      else (.proceed [], { window with slots })
    | none =>
      let later (other : Slot) : Bool := slot.segment < other.segment
      let canceled := slots.runningWhere later
      let slots := slots.cancelWhere later
      if slots.any fun slot => slot.any Slot.isRunning then
        (.proceed canceled, { window with slots, hasFailure := true })
      else (.fatal .finalSegmentNotFound, { window with slots })

/-- Cancels every running request and reports their slots. -/
def cancelAll (window : Window) : List Nat × Window :=
  (window.slots.runningWhere fun _ => true,
   { window with slots := window.slots.cancelWhere fun _ => true })

end Window

end SegmentRetrieval
