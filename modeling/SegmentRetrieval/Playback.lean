import SegmentRetrieval.MemoryFace
import SegmentRetrieval.Pipeline

/-! # Playing a retrieval over a memory face

A playback runs a pipeline over a memory face on a clock that moves only when everything waits.
Fetches that are ready go on in turn, each until it has to wait or has ended; then the pipeline
handles the ended ones in the order in which they ended; and when nothing is ready, the clock moves
to the next time at which a wait is over.  Waits that end together end in the order in which they
began, and a wait of no time is none.
-/

namespace SegmentRetrieval

/-- What a fetch does next. -/
inductive Phase where
  /-- It expresses its Interest. -/
  | expressing
  /-- Its Interest meets the face. -/
  | meeting
  /-- The lifetime of its Interest is over. -/
  | expiring
deriving DecidableEq, Repr

/-- A live fetch, and what it does when its turn comes. -/
structure Task where
  request : Request
  fetch : Fetch
  phase : Phase := .expressing
deriving DecidableEq, Repr

/-- A task that waits for a time. -/
structure Timer where
  due : Nat
  task : Task
deriving DecidableEq, Repr

structure Playback where
  pipeline : Pipeline
  face : MemoryFace
  /-- The time since the start, in nanoseconds. -/
  now : Nat := 0
  /-- The tasks whose turn has come, the next one first. -/
  ready : List Task := []
  /-- The fetches that have ended and are not handled yet, in order. -/
  ended : List (Request × Except FetchFailure Data) := []
  /-- The waiting tasks by due time, those of one time in the order in which they began to wait. -/
  timers : List Timer := []
  /-- What has been reported so far. -/
  events : List Event := []

namespace Playback

/-- Adds a timer behind those that are due no later. -/
def addTimer (timers : List Timer) (timer : Timer) : List Timer :=
  timers.takeWhile (·.due ≤ timer.due) ++ timer :: timers.dropWhile (·.due ≤ timer.due)

/-- Lets a task go on after a wait in nanoseconds. -/
def resumeAfter (playback : Playback) (wait : Nat) (task : Task) : Playback :=
  if wait = 0 then { playback with ready := task :: playback.ready }
  else { playback with timers := addTimer playback.timers ⟨playback.now + wait, task⟩ }

section step

variable (clock : Clock) (draws : FetchId → UInt32)

/-- Tells a fetch the outcome of its Interest. -/
def resolve (playback : Playback) (task : Task) (outcome : Outcome) : Playback :=
  match task.fetch.answer (draws task.request.fetchId) outcome with
  | .finished result => { playback with ended := playback.ended ++ [(task.request, result)] }
  | .again wait fetch =>
    playback.resumeAfter (clock.wait wait) { task with fetch, phase := .expressing }

/-- Lets a task do what its phase says. -/
def runTask (playback : Playback) (task : Task) : Playback :=
  match task.phase with
  | .expressing =>
    { playback with face := playback.face.record task.fetch.interest }.resumeAfter
      (clock.wait playback.face.delay) { task with phase := .meeting }
  | .meeting =>
    let (outcome, face) := playback.face.answer task.fetch.interest.name
    let playback := { playback with face }
    match outcome with
    | .error .timeout =>
      playback.resumeAfter (clock.sleep task.fetch.interest.lifetime)
        { task with phase := .expiring }
    | outcome => playback.resolve clock draws task outcome
  | .expiring => playback.resolve clock draws task (.error .timeout)

/-- Lets the pipeline's step take effect: aborted fetches are gone, requested ones wait for their
turn. -/
def settle (playback : Playback) (step : Pipeline × Output) : Playback :=
  let (pipeline, output) := step
  let kept (task : Task) : Bool := ! output.aborted.contains task.request
  let toTask (request : Request) : Task := { request, fetch := pipeline.fetch draws request }
  { playback with
    pipeline
    ready := playback.ready.filter kept ++ output.requests.map toTask
    timers := playback.timers.filter fun timer => kept timer.task
    events := playback.events ++ output.events }

/-- Handles the fetches that have ended. -/
def handleEnded (playback : Playback) : Playback :=
  playback.ended.foldl
    (fun playback (request, result) =>
      playback.settle draws (playback.pipeline.complete (.ofNanos playback.now) request result))
    { playback with ended := [] }

/-- The next thing to happen, unless nothing can happen any more. -/
def step? (playback : Playback) : Option Playback :=
  match playback.ready with
  | task :: ready => some ({ playback with ready }.runTask clock draws task)
  | [] =>
    match playback.ended with
    | _ :: _ => some (playback.handleEnded draws)
    | [] =>
      match playback.timers with
      | [] => none
      | timer :: _ =>
        some { playback with
          now := timer.due
          ready := (playback.timers.takeWhile (·.due = timer.due)).map Timer.task
          timers := playback.timers.dropWhile (·.due = timer.due) }

end step

/-- At most so many steps; while `n` of them are left, the fetches draw the nonces `draws n`. -/
def runFor (clock : Clock) (draws : Nat → FetchId → UInt32) : Nat → Playback → Playback
  | 0, playback => playback
  | steps + 1, playback =>
    match playback.step? clock (draws (steps + 1)) with
    | none => playback
    | some playback => runFor clock draws steps playback

/-- More steps than a playback can take.  A request is made for each slot and after each packet
received, which is a packet of the face; an Interest is expressed for each request and after each
fault; and an Interest takes at most three turns, three waits and one handling. -/
def stepBound (playback : Playback) : Nat :=
  let requests := playback.pipeline.options.windowSize + playback.face.packets.length + 1
  let faults := playback.face.faults.foldl (fun faults entry => faults + entry.2.length) 0
  8 * (requests + faults)

/-- Plays the pipeline over the face until nothing can happen any more.  The first fetches draw the
nonces `draws 0`. -/
def run (clock : Clock) (draws : Nat → FetchId → UInt32) (pipeline : Pipeline) (face : MemoryFace) :
    Playback :=
  let playback := settle (draws 0) { pipeline, face } pipeline.start
  playback.runFor clock draws playback.stepBound

end Playback

end SegmentRetrieval
