import SegmentRetrieval.Proofs.Window.Slots
import SegmentRetrieval.Retrieval

/-! # What one completion can do

`Step` lists what happens when the fetch of a request ends: nothing where the request does not run
any more, one of four outcomes of a failure (`GivesUp`), and one of seven outcomes of a packet
(`Receives`).  A packet that is taken in without an error leads to a state with a free slot
(`Absorbs`), from which the retrieval completes, fails, has nothing left to request, or requests the
next segment.  `finish_step` says that this list is complete; invariants are proved case by case from
it and do not open the functions again.
-/

namespace SegmentRetrieval

/-! ## Outputs -/

def Event.verified? : Event → Option Verified
  | .segment verified => some verified
  | .failed _ => none
  | .completed _ => none

namespace Output

/-- The segments handed to the consumer. -/
def delivered (output : Output) : List Verified :=
  output.events.filterMap Event.verified?

@[simp] theorem events_append (first second : Output) :
    (first ++ second).events = first.events ++ second.events := rfl

@[simp] theorem requests_append (first second : Output) :
    (first ++ second).requests = first.requests ++ second.requests := rfl

@[simp] theorem aborted_append (first second : Output) :
    (first ++ second).aborted = first.aborted ++ second.aborted := rfl

@[simp] theorem delivered_append (first second : Output) :
    (first ++ second).delivered = first.delivered ++ second.delivered :=
  List.filterMap_append

theorem append_assoc (first second third : Output) :
    first ++ second ++ third = first ++ (second ++ third) :=
  (mk.injEq ..).mpr ⟨List.append_assoc .., List.append_assoc .., List.append_assoc ..⟩

@[simp] theorem append_nil (output : Output) : output ++ {} = output :=
  (mk.injEq ..).mpr ⟨List.append_nil _, List.append_nil _, List.append_nil _⟩

@[simp] theorem delivered_empty : ({} : Output).delivered = [] := rfl

/-- The output that hands over some segments. -/
def ofVerified (verified : List Verified) : Output :=
  { events := verified.map .segment }

@[simp] theorem filterMap_verified?_map_segment (verified : List Verified) :
    (verified.map .segment).filterMap Event.verified? = verified := by
  rw [List.filterMap_map]
  exact List.filterMap_some

/-- An output that ends in another event delivers the segments before it. -/
theorem delivered_of_events {output : Output} {verified : List Verified} {event : Event}
    (events : output.events = verified.map .segment ++ [event]) (other : event.verified? = none) :
    output.delivered = verified := by
  rw [delivered, events, List.filterMap_append, filterMap_verified?_map_segment,
    List.filterMap_cons_none other, List.filterMap_nil, List.append_nil]

@[simp] theorem delivered_ofVerified (verified : List Verified) :
    (ofVerified verified).delivered = verified :=
  filterMap_verified?_map_segment verified

@[simp] theorem events_ofVerified (verified : List Verified) :
    (ofVerified verified).events = verified.map .segment := rfl

@[simp] theorem requests_ofVerified (verified : List Verified) :
    (ofVerified verified).requests = [] := rfl

@[simp] theorem aborted_ofVerified (verified : List Verified) :
    (ofVerified verified).aborted = [] := rfl

end Output

namespace Retrieval

variable (retrieval : Retrieval)

/-! ## Aborting and stopping -/

@[simp] theorem verifier_abort (slots : List Nat) :
    (retrieval.abort slots).1.verifier = retrieval.verifier := rfl

@[simp] theorem events_abort (slots : List Nat) : (retrieval.abort slots).2.events = [] := rfl

@[simp] theorem requests_abort (slots : List Nat) : (retrieval.abort slots).2.requests = [] := rfl

@[simp] theorem delivered_abort (slots : List Nat) : (retrieval.abort slots).2.delivered = [] := rfl

@[simp] theorem stopped_stop : retrieval.stop.1.stopped = true := rfl

theorem not_has_running_stop (i n : Nat) : ¬ retrieval.stop.1.window.Has .running i n :=
  retrieval.window.not_has_running_cancelAll i n

@[simp] theorem events_stop : retrieval.stop.2.events = [] := rfl

@[simp] theorem delivered_stop : retrieval.stop.2.delivered = [] := rfl

@[simp] theorem events_stopWith (event : Event) :
    (retrieval.stopWith event).2.events = if retrieval.listening then [event] else [] := rfl

@[simp] theorem requests_stopWith (event : Event) :
    (retrieval.stopWith event).2.requests = [] := rfl

theorem delivered_stopWith {event : Event} (terminal : event.verified? = none) :
    (retrieval.stopWith event).2.delivered = [] := by
  rw [Output.delivered, events_stopWith]
  split
  · rw [List.filterMap_cons_none terminal, List.filterMap_nil]
  · rfl

@[simp] theorem delivered_fail (error : RetrievalError) :
    (retrieval.fail error).2.delivered = [] :=
  retrieval.delivered_stopWith rfl

@[simp] theorem delivered_complete (elapsed : Duration) :
    (retrieval.complete elapsed).2.delivered = [] :=
  retrieval.delivered_stopWith rfl

/-! ## The consumer -/

/-- The consumer takes so many more events. -/
def Hears (count : Nat) : Prop :=
  ∀ room, retrieval.room = some room → count ≤ room

theorem listening_iff_hears : retrieval.listening = true ↔ retrieval.Hears 1 := by
  rw [listening, Hears]
  cases retrieval.room with
  | none => simp
  | some room => simp [Nat.one_le_iff_ne_zero]

theorem hears_of_room_eq_none (stays : retrieval.room = none) (count : Nat) :
    retrieval.Hears count := by
  intro room left
  rw [stays] at left
  cases left

theorem listening_of_leaveAfter {events : Nat}
    (heard : (retrieval.leaveAfter events).listening = true) : retrieval.listening = true := by
  rw [listening, leaveAfter] at heard
  rw [listening]
  cases left : retrieval.room with
  | none => rfl
  | some room =>
    simp only [left, Option.elim_some, bne_iff_ne, ne_eq, Option.some.injEq] at heard ⊢
    omega

/-- All the segments are taken. -/
theorem deliver_of_hears {verified : List Verified} (heard : retrieval.Hears verified.length) :
    retrieval.deliver verified = (true, { retrieval with
      room := retrieval.room.map (· - verified.length)
      bytes := verified.foldl Verified.addBytes retrieval.bytes }, .ofVerified verified) := by
  induction verified generalizing retrieval with
  | nil =>
    have same : retrieval.room.map (· - 0) = retrieval.room := Option.map_id' ..
    rw [deliver, List.length_nil, same]
    rfl
  | cons first rest ih =>
    have here : retrieval.listening = true :=
      retrieval.listening_iff_hears.mpr fun room left => Nat.le_trans (by simp) (heard room left)
    -- the first segment takes one place, and there is one for each of the others
    have later : Hears { retrieval with
        bytes := Verified.addBytes retrieval.bytes first, room := retrieval.room.map (· - 1) }
        rest.length := by
      intro room left
      obtain ⟨before, same, rfl⟩ := Option.map_eq_some_iff.mp left
      exact Nat.le_sub_of_add_le (heard before same)
    have rooms : (retrieval.room.map (· - 1)).map (· - rest.length) =
        retrieval.room.map (· - (first :: rest).length) := by
      rw [Option.map_map]
      congr 1
      funext room
      simp only [Function.comp, List.length_cons]
      omega
    rw [deliver]
    simp only [show ∀ bytes, listening { retrieval with bytes } = true from fun _ => here, if_true,
      ih _ later, rooms]
    rfl

/-- The consumer leaves before it has taken all the segments. -/
theorem deliver_of_short {verified : List Verified} {room : Nat} (left : retrieval.room = some room)
    (short : room < verified.length) :
    retrieval.deliver verified =
      let last := { retrieval with
        room := some 0, bytes := (verified.take (room + 1)).foldl Verified.addBytes retrieval.bytes }
      (false, last.stop.1, .ofVerified (verified.take room) ++ last.stop.2) := by
  induction verified generalizing retrieval room with
  | nil => cases short
  | cons first rest ih =>
    cases room with
    | zero =>
      -- the segment that nobody takes counts as delivered bytes all the same
      have deaf : ∀ bytes, listening { retrieval with bytes } = false := by
        intro bytes
        rw [listening, left]
        rfl
      rw [deliver]
      simp only [deaf]
      rw [← left]
      rfl
    | succ room =>
      have here : ∀ bytes, listening { retrieval with bytes } = true := by
        intro bytes
        rw [listening, left]
        rfl
      have later := @ih { retrieval with
        bytes := Verified.addBytes retrieval.bytes first, room := retrieval.room.map (· - 1) } room
        (by rw [left]; rfl) (Nat.lt_of_succ_lt_succ short)
      rw [deliver]
      simp only [here, if_true, later]
      rfl

/-! ## Taking a packet in -/

/-- What the verifier says about a packet received for a request. -/
def submitted (request : Request) (data : Data) : Submitted :=
  (retrieval.verifier.submit request.segment data).1

/-- The retrieval that has taken a packet in; the slot of its request is free. -/
def taken (request : Request) (data : Data) : Retrieval :=
  { retrieval with
    window := retrieval.window.markSucceeded request.slot
    verifier := (retrieval.verifier.submit request.segment data).2
    fetches := retrieval.fetches.set request.slot none
    room := retrieval.room.map (· - (retrieval.submitted request data).verified.length)
    bytes := (retrieval.submitted request data).verified.foldl Verified.addBytes retrieval.bytes }

/-- The retrieval that has taken a packet in and lost its consumer while it delivered. -/
def deserted (request : Request) (data : Data) (room : Nat) : Retrieval :=
  { retrieval.taken request data with
    room := some 0
    bytes := ((retrieval.submitted request data).verified.take (room + 1)).foldl Verified.addBytes
      retrieval.bytes }

/-- The retrieval that has learned its end, and what it aborted. -/
def told (last : Nat) : Retrieval × Output :=
  abort { retrieval with
      window := retrieval.window.learned last, verifier := retrieval.verifier.discardBeyond last }
    (retrieval.window.slots.runningWhere fun slot => last < slot.segment)

/-- The packet is no reason to fail, and the consumer takes the segments it makes acceptable. -/
structure Admits (request : Request) (data : Data) : Prop where
  sound : (retrieval.submitted request data).error = none
  heard : retrieval.Hears (retrieval.submitted request data).verified.length

/-- Taking a packet in leads to a state with a free slot, and to some aborted fetches where the packet
is the first that declares the end. -/
inductive Absorbs (request : Request) (data : Data) : Retrieval → Output → Prop where
  | silent (admits : retrieval.Admits request data)
      (silent : data.finalSegment? = none ∨ retrieval.window.finalSegment ≠ none) :
      Absorbs request data (retrieval.taken request data) {}
  | told {last : UInt64} (admits : retrieval.Admits request data)
      (unknown : retrieval.window.finalSegment = none) (reads : data.finalSegment? = some last)
      (unfailed : ∀ index segment, (retrieval.taken request data).window.Has .failed index segment →
        last.toNat < segment) :
      Absorbs request data ((retrieval.taken request data).told last.toNat).1
        ((retrieval.taken request data).told last.toNat).2

section absorbs

variable {retrieval} {state : Retrieval} {request : Request} {data : Data} {aborted : Output}
  (absorbs : retrieval.Absorbs request data state aborted)
include absorbs

theorem Absorbs.admits : retrieval.Admits request data := by
  cases absorbs <;> assumption

theorem Absorbs.events : aborted.events = [] := by
  cases absorbs <;> rfl

/-- A known end stays. -/
theorem Absorbs.finalSegment {last : Nat} (known : retrieval.window.finalSegment = some last) :
    state.window.finalSegment = some last := by
  cases absorbs with
  | silent => exact known
  | told _ unknown =>
    rw [known] at unknown
    cases unknown

theorem Absorbs.nextSegment : state.window.nextSegment = retrieval.window.nextSegment := by
  cases absorbs <;> rfl

theorem Absorbs.running {i n : Nat} (runs : state.window.Has .running i n) :
    i ≠ request.slot ∧ retrieval.window.Has .running i n := by
  cases absorbs with
  | silent => exact (Window.has_markSucceeded_iff (by decide)).mp runs
  | told =>
    have before := (Window.has_running_learned_iff.mp runs).2
    exact (Window.has_markSucceeded_iff (by decide)).mp before

theorem Absorbs.failed {i n : Nat} (fails : state.window.Has .failed i n) :
    retrieval.window.Has .failed i n := by
  cases absorbs with
  | silent => exact ((Window.has_markSucceeded_iff (by decide)).mp fails).2
  | told =>
    have before := Window.has_failed_learned_iff.mp fails
    exact ((Window.has_markSucceeded_iff (by decide)).mp before).2

theorem Absorbs.room : state.room = (retrieval.taken request data).room := by
  cases absorbs <;> rfl

theorem Absorbs.stopped : state.stopped = retrieval.stopped := by
  cases absorbs <;> rfl

theorem Absorbs.requests : aborted.requests = [] := by
  cases absorbs <;> rfl

theorem Absorbs.delivered : aborted.delivered = [] := by
  cases absorbs <;> rfl

end absorbs

/-- The retrieval that has requested the next segment through a slot, and that request. -/
def requested (slot : Nat) : Retrieval × Output :=
  issue { retrieval with
    window := { retrieval.window with nextSegment := retrieval.window.nextSegment + 1 } }
    slot retrieval.window.nextSegment

@[simp] theorem verifier_requested (slot : Nat) :
    (retrieval.requested slot).1.verifier = retrieval.verifier := rfl

@[simp] theorem bytes_requested (slot : Nat) :
    (retrieval.requested slot).1.bytes = retrieval.bytes := rfl

@[simp] theorem events_requested (slot : Nat) : (retrieval.requested slot).2.events = [] := rfl

@[simp] theorem delivered_requested (slot : Nat) :
    (retrieval.requested slot).2.delivered = [] := rfl

/-! ## The steps -/

section steps

variable {retrieval} (elapsed : Duration) (request : Request)

/-- The retrieval that is told that a request has failed; the slot of the request has no fetch any
more. -/
def bereft (retrieval : Retrieval) (request : Request) (window : Window) : Retrieval :=
  { retrieval with window, fetches := retrieval.fetches.set request.slot none }

/-- The retrieval that remembers a failure, and what it aborted: the fetches for later segments. -/
def forgone (retrieval : Retrieval) (request : Request) : Retrieval × Output :=
  abort (retrieval.bereft request (retrieval.window.remembered request.slot request.segment))
    ((retrieval.window.markFailed request.slot).slots.runningWhere fun other =>
      request.segment < other.segment)

@[simp] theorem verifier_forgone (retrieval : Retrieval) (request : Request) :
    (retrieval.forgone request).1.verifier = retrieval.verifier := rfl

@[simp] theorem events_forgone (retrieval : Retrieval) (request : Request) :
    (retrieval.forgone request).2.events = [] := rfl

@[simp] theorem requests_forgone (retrieval : Retrieval) (request : Request) :
    (retrieval.forgone request).2.requests = [] := rfl

@[simp] theorem delivered_forgone (retrieval : Retrieval) (request : Request) :
    (retrieval.forgone request).2.delivered = [] := rfl

/-- What the failure of a running request leads to. -/
inductive GivesUp (retrieval : Retrieval) (request : Request) (failure : FetchFailure) :
    Retrieval → Output → Prop where
  | fatal {last : Nat} {window : Window} (known : retrieval.window.finalSegment = some last)
      (within : request.segment ≤ last) (kept : window.finalSegment = some last) :
      GivesUp retrieval request failure
        (fail (retrieval.bereft request window) (.fetch request.segment failure)).1
        (fail (retrieval.bereft request window) (.fetch request.segment failure)).2
  | ignored {last : Nat} (known : retrieval.window.finalSegment = some last)
      (past : last < request.segment) :
      GivesUp retrieval request failure
        (retrieval.bereft request (retrieval.window.markFailed request.slot)) {}
  | lost {window : Window} (unknown : retrieval.window.finalSegment = none)
      (idle : (retrieval.window.remembered request.slot request.segment).running = 0)
      (kept : window.finalSegment = none) :
      GivesUp retrieval request failure
        (fail (retrieval.bereft request window) .finalSegmentNotFound).1
        (fail (retrieval.bereft request window) .finalSegmentNotFound).2
  | remembered (unknown : retrieval.window.finalSegment = none)
      (busy : 0 < (retrieval.window.remembered request.slot request.segment).running) :
      GivesUp retrieval request failure
        (forgone retrieval request).1 (forgone retrieval request).2

/-- What a packet for a running request leads to. -/
inductive Receives (retrieval : Retrieval) (elapsed : Duration) (request : Request) (data : Data) :
    Retrieval → Output → Prop where
  | unheard {room : Nat} (left : retrieval.room = some room)
      (short : room < (retrieval.submitted request data).verified.length) :
      Receives retrieval elapsed request data (retrieval.deserted request data room).stop.1
        (.ofVerified ((retrieval.submitted request data).verified.take room) ++
          (retrieval.deserted request data room).stop.2)
  | refused {error : RetrievalError} (reads : (retrieval.submitted request data).error = some error)
      (heard : retrieval.Hears (retrieval.submitted request data).verified.length) :
      Receives retrieval elapsed request data ((retrieval.taken request data).fail error).1
        (.ofVerified (retrieval.submitted request data).verified ++
          ((retrieval.taken request data).fail error).2)
  | cut {last : UInt64} {index segment : Nat} {window : Window}
      (admits : retrieval.Admits request data) (unknown : retrieval.window.finalSegment = none)
      (reads : data.finalSegment? = some last)
      (failed : (retrieval.taken request data).window.Has .failed index segment)
      (within : segment ≤ last.toNat) (kept : window.finalSegment = some last.toNat) :
      Receives retrieval elapsed request data
        (fail { retrieval.taken request data with window } (.segmentFailed segment)).1
        (.ofVerified (retrieval.submitted request data).verified ++
          (fail { retrieval.taken request data with window } (.segmentFailed segment)).2)
  | finished {state : Retrieval} {aborted : Output} {last : Nat}
      (absorbs : retrieval.Absorbs request data state aborted)
      (known : state.window.finalSegment = some last) (past : last < state.verifier.nextSegment) :
      Receives retrieval elapsed request data (state.complete elapsed).1
        (.ofVerified (retrieval.submitted request data).verified ++
          (aborted ++ (state.complete elapsed).2))
  | endless {state : Retrieval} {aborted : Output}
      (absorbs : retrieval.Absorbs request data state aborted)
      (unknown : state.window.finalSegment = none) (failed : state.window.hasFailure = true) :
      Receives retrieval elapsed request data (state.fail .finalSegmentNotFound).1
        (.ofVerified (retrieval.submitted request data).verified ++
          (aborted ++ (state.fail .finalSegmentNotFound).2))
  | exhausted {state : Retrieval} {aborted : Output} {last : Nat}
      (absorbs : retrieval.Absorbs request data state aborted)
      (known : state.window.finalSegment = some last)
      (unfinished : state.verifier.nextSegment ≤ last) (through : last < state.window.nextSegment) :
      Receives retrieval elapsed request data state
        (.ofVerified (retrieval.submitted request data).verified ++ aborted)
  | requested {state : Retrieval} {aborted : Output}
      (absorbs : retrieval.Absorbs request data state aborted)
      (unfinished : ∀ last, state.window.finalSegment = some last →
        state.verifier.nextSegment ≤ last ∧ state.window.nextSegment ≤ last)
      (unfailed : state.window.finalSegment = none → state.window.hasFailure = false) :
      Receives retrieval elapsed request data (state.requested request.slot).1
        (.ofVerified (retrieval.submitted request data).verified ++
          (aborted ++ (state.requested request.slot).2))

/-- What the end of a request's fetch leads to. -/
inductive Step (retrieval : Retrieval) (elapsed : Duration) (request : Request) :
    Except FetchFailure Data → Retrieval → Output → Prop where
  | stale {result : Except FetchFailure Data}
      (old : retrieval.window.isCurrent request.slot request.fetchId = false) :
      Step retrieval elapsed request result retrieval {}
  | failed {failure : FetchFailure} {next : Retrieval} {output : Output}
      (runs : retrieval.window.Has .running request.slot request.segment)
      (gives : retrieval.GivesUp request failure next output) :
      Step retrieval elapsed request (.error failure) next output
  | received {data : Data} {next : Retrieval} {output : Output}
      (runs : retrieval.window.Has .running request.slot request.segment)
      (receives : retrieval.Receives elapsed request data next output) :
      Step retrieval elapsed request (.ok data) next output

theorem advance_cases (state : Retrieval) (slot : Nat) :
    (∃ last, state.window.finalSegment = some last ∧ last < state.verifier.nextSegment ∧
        state.advance elapsed slot = state.complete elapsed) ∨
      (state.window.finalSegment = none ∧ state.window.hasFailure = true ∧
        state.advance elapsed slot = state.fail .finalSegmentNotFound) ∨
      (∃ last, state.window.finalSegment = some last ∧ state.verifier.nextSegment ≤ last ∧
        last < state.window.nextSegment ∧ state.advance elapsed slot = (state, {})) ∨
      ((∀ last, state.window.finalSegment = some last →
          state.verifier.nextSegment ≤ last ∧ state.window.nextSegment ≤ last) ∧
        (state.window.finalSegment = none → state.window.hasFailure = false) ∧
        state.advance elapsed slot = state.requested slot) := by
  -- completion is tested first, and only then the free slot is refilled
  by_cases completed : state.window.finalSegment.any (· < state.verifier.nextSegment)
  · obtain ⟨last, known, past⟩ := (Option.any_eq_true ..).mp completed
    exact .inl ⟨last, known, of_decide_eq_true past, if_pos completed⟩
  · have filled : state.advance elapsed slot = state.fill [slot] := if_neg completed
    have unfinished : ∀ last, state.window.finalSegment = some last →
        state.verifier.nextSegment ≤ last := by
      intro last known
      simpa [known] using completed
    refine .inr ?_
    rw [filled]
    rcases state.window.nextRequest_cases with ⟨failed, unknown, chosen⟩ |
      ⟨last, known, through, chosen⟩ | ⟨unfailed, within, chosen⟩
    · exact .inl ⟨unknown, failed, by rw [fill, chosen]⟩
    · exact .inr (.inl ⟨last, known, unfinished last known, through, by rw [fill, chosen]⟩)
    · refine .inr (.inr ⟨fun last known => ⟨unfinished last known, within last known⟩, unfailed, ?_⟩)
      rw [fill, chosen]
      exact Prod.ext rfl (Output.append_nil _)

variable {elapsed request}

theorem Receives.of_absorbs {data : Data} {state : Retrieval} {aborted : Output}
    (absorbs : retrieval.Absorbs request data state aborted) :
    retrieval.Receives elapsed request data (state.advance elapsed request.slot).1
      (.ofVerified (retrieval.submitted request data).verified ++
        (aborted ++ (state.advance elapsed request.slot).2)) := by
  rcases advance_cases elapsed state request.slot with ⟨last, known, past, same⟩ |
    ⟨unknown, failed, same⟩ | ⟨last, known, unfinished, through, same⟩ |
    ⟨unfinished, unfailed, same⟩
  · rw [same]
    exact .finished absorbs known past
  · rw [same]
    exact .endless absorbs unknown failed
  · rw [same, Output.append_nil]
    exact .exhausted absorbs known unfinished through
  · rw [same]
    exact .requested absorbs unfinished unfailed

theorem learnFinal_of_silent {declared : Option Nat} {slot : Nat}
    (silent : declared = none ∨ retrieval.window.finalSegment ≠ none) :
    retrieval.learnFinal elapsed slot declared = retrieval.advance elapsed slot := by
  unfold learnFinal
  split
  next last unknown => simp [unknown] at silent
  next => rfl

theorem receive_of_hears {data : Data}
    (heard : retrieval.Hears (retrieval.submitted request data).verified.length) :
    receive { retrieval with fetches := retrieval.fetches.set request.slot none } elapsed
        request.slot request.segment data =
      let next :=
        match (retrieval.submitted request data).error with
        | some error => (retrieval.taken request data).fail error
        | none => (retrieval.taken request data).learnFinal elapsed request.slot
            (data.finalSegment?.map UInt64.toNat)
      (next.1, .ofVerified (retrieval.submitted request data).verified ++ next.2) := by
  unfold submitted at heard
  have delivered := deliver_of_hears { retrieval with
    window := retrieval.window.markSucceeded request.slot
    verifier := (retrieval.verifier.submit request.segment data).2
    fetches := retrieval.fetches.set request.slot none } heard
  simp only [receive, delivered]
  rfl

theorem receive_of_short {data : Data} {room : Nat} (left : retrieval.room = some room)
    (short : room < (retrieval.submitted request data).verified.length) :
    receive { retrieval with fetches := retrieval.fetches.set request.slot none } elapsed
        request.slot request.segment data =
      ((retrieval.deserted request data room).stop.1,
        .ofVerified ((retrieval.submitted request data).verified.take room) ++
          (retrieval.deserted request data room).stop.2) := by
  unfold submitted at short
  have delivered := @deliver_of_short { retrieval with
    window := retrieval.window.markSucceeded request.slot
    verifier := (retrieval.verifier.submit request.segment data).2
    fetches := retrieval.fetches.set request.slot none } _ room left short
  simp only [receive, delivered]
  rfl

theorem receive_receives (data : Data) :
    retrieval.Receives elapsed request data
      (receive { retrieval with fetches := retrieval.fetches.set request.slot none } elapsed
        request.slot request.segment data).1
      (receive { retrieval with fetches := retrieval.fetches.set request.slot none } elapsed
        request.slot request.segment data).2 := by
  by_cases heard : retrieval.Hears (retrieval.submitted request data).verified.length
  · rw [receive_of_hears heard]
    cases outcome : (retrieval.submitted request data).error with
    | some error => exact .refused outcome heard
    | none =>
      have admits : retrieval.Admits request data := ⟨outcome, heard⟩
      by_cases silent : data.finalSegment? = none ∨ retrieval.window.finalSegment ≠ none
      · have undecided : data.finalSegment?.map UInt64.toNat = none ∨
            (retrieval.taken request data).window.finalSegment ≠ none :=
          silent.imp_left Option.map_eq_none_iff.mpr
        simp only [learnFinal_of_silent undecided]
        exact .of_absorbs (.silent admits silent)
      · -- the packet is the first that declares the end
        rw [not_or, Decidable.not_not] at silent
        obtain ⟨declared, unknown⟩ := silent
        obtain ⟨last, reads⟩ := Option.ne_none_iff_exists'.mp declared
        have unknown : (retrieval.taken request data).window.finalSegment = none := unknown
        rcases Window.learnFinal_cases unknown last.toNat with
          ⟨index, segment, first, same⟩ | ⟨unfailed, same⟩
        · simp only [learnFinal, reads, Option.map_some, unknown, same]
          exact .cut admits unknown reads first.failed first.within rfl
        · simp only [learnFinal, reads, Option.map_some, unknown, same]
          exact .of_absorbs (.told admits unknown reads unfailed)
  · obtain ⟨room, left, short⟩ : ∃ room, retrieval.room = some room ∧
        room < (retrieval.submitted request data).verified.length := by
      simpa [Hears] using heard
    rw [receive_of_short left short]
    exact .unheard left short

theorem giveUp_givesUp (runs : retrieval.window.Has .running request.slot request.segment)
    (failure : FetchFailure) :
    retrieval.GivesUp request failure
      (giveUp { retrieval with fetches := retrieval.fetches.set request.slot none } request.slot
        failure).1
      (giveUp { retrieval with fetches := retrieval.fetches.set request.slot none } request.slot
        failure).2 := by
  unfold giveUp
  obtain ⟨fetchId, place⟩ := runs
  rcases Window.onFailure_cases place failure with ⟨last, known, within, same⟩ |
    ⟨last, known, past, same⟩ | ⟨unknown, idle, same⟩ | ⟨unknown, busy, same⟩
  · simp only [same]
    exact .fatal known within known
  · simp only [same]
    exact .ignored known past
  · simp only [same]
    exact .lost unknown idle unknown
  · simp only [same]
    exact .remembered unknown busy

/-- A consumer that takes a next event after a packet took one before it. -/
theorem hears_of_listening_taken {data : Data}
    (heard : (retrieval.taken request data).listening = true) : retrieval.listening = true := by
  rw [listening, taken] at heard
  rw [listening]
  cases left : retrieval.room with
  | none => rfl
  | some room =>
    simp only [left, Option.map_some, bne_iff_ne, ne_eq, Option.some.injEq] at heard ⊢
    omega

/-- A consumer that takes a next event after a step took one before it. -/
theorem Step.listening {result : Except FetchFailure Data} {next : Retrieval} {output : Output}
    (step : retrieval.Step elapsed request result next output) (heard : next.listening = true) :
    retrieval.listening = true := by
  have absorbed : ∀ {data : Data} {state : Retrieval} {aborted : Output},
      retrieval.Absorbs request data state aborted → state.listening = true →
        retrieval.listening = true := by
    intro data state aborted absorbs heard
    rw [Retrieval.listening, absorbs.room] at heard
    exact hears_of_listening_taken heard
  cases step with
  | stale => exact heard
  | failed _ gives => cases gives <;> exact heard
  | received _ receives =>
    cases receives with
    | unheard => cases heard
    | refused => exact hears_of_listening_taken heard
    | cut => exact hears_of_listening_taken heard
    | finished absorbs => exact absorbed absorbs heard
    | endless absorbs => exact absorbed absorbs heard
    | exhausted absorbs => exact absorbed absorbs heard
    | requested absorbs => exact absorbed absorbs heard

/-- A consumer that never leaves stays. -/
theorem Step.room {result : Except FetchFailure Data} {next : Retrieval} {output : Output}
    (step : retrieval.Step elapsed request result next output) (stays : retrieval.room = none) :
    next.room = none := by
  have taken : ∀ data, (retrieval.taken request data).room = none := fun data => by
    rw [Retrieval.taken, stays]
    rfl
  cases step with
  | stale => exact stays
  | failed _ gives => cases gives <;> exact stays
  | @received data _ _ _ receives =>
    cases receives with
    | unheard left =>
      rw [stays] at left
      cases left
    | refused => exact taken data
    | cut => exact taken data
    | finished absorbs => exact absorbs.room.trans (taken data)
    | endless absorbs => exact absorbs.room.trans (taken data)
    | exhausted absorbs => exact absorbs.room.trans (taken data)
    | requested absorbs => exact absorbs.room.trans (taken data)

/-- A known end stays. -/
theorem Step.finalSegment {result : Except FetchFailure Data} {next : Retrieval} {output : Output}
    (step : retrieval.Step elapsed request result next output) {last : Nat}
    (known : retrieval.window.finalSegment = some last) :
    next.window.finalSegment = some last := by
  cases step with
  | stale => exact known
  | failed _ gives =>
    cases gives with
    | fatal known' _ kept =>
      rw [known] at known'
      exact kept.trans known'.symm
    | ignored => exact known
    | lost unknown =>
      rw [known] at unknown
      cases unknown
    | remembered => exact known
  | received _ receives =>
    cases receives with
    | unheard => exact known
    | refused => exact known
    | cut _ unknown =>
      rw [known] at unknown
      cases unknown
    | finished absorbs => exact absorbs.finalSegment known
    | endless absorbs => exact absorbs.finalSegment known
    | exhausted absorbs => exact absorbs.finalSegment known
    | requested absorbs => exact absorbs.finalSegment known

/-- A step hands over nothing, or the segments that the packet made acceptable as far as they are
taken. -/
theorem Step.delivered {result : Except FetchFailure Data} {next : Retrieval} {output : Output}
    (step : retrieval.Step elapsed request result next output) :
    output.delivered = [] ∨ ∃ data, result = .ok data ∧
      output.delivered <+: (retrieval.submitted request data).verified := by
  cases step with
  | stale => exact .inl rfl
  | failed _ gives => cases gives <;> simp
  | @received data _ _ _ receives =>
    refine .inr ⟨data, rfl, ?_⟩
    cases receives with
    | unheard => simpa using List.take_prefix ..
    | refused => simp
    | cut => simp
    | finished absorbs => simp [absorbs.delivered]
    | endless absorbs => simp [absorbs.delivered]
    | exhausted absorbs => simp [absorbs.delivered]
    | requested absorbs => simp [absorbs.delivered]

/-- A step that stops the retrieval cancels what runs and requests nothing. -/
theorem Step.exists_stop {result : Except FetchFailure Data} {next : Retrieval} {output : Output}
    (step : retrieval.Step elapsed request result next output) (live : retrieval.stopped = false)
    (stopped : next.stopped = true) :
    (∃ state : Retrieval, next = state.stop.1) ∧ output.requests = [] := by
  have goesOn : retrieval.stopped ≠ true := by simp [live]
  cases step with
  | stale => exact absurd stopped goesOn
  | failed _ gives =>
    cases gives with
    | fatal => exact ⟨⟨_, rfl⟩, rfl⟩
    | ignored => exact absurd stopped goesOn
    | lost => exact ⟨⟨_, rfl⟩, rfl⟩
    | remembered => exact absurd stopped goesOn
  | received _ receives =>
    cases receives with
    | unheard => exact ⟨⟨_, rfl⟩, rfl⟩
    | refused => exact ⟨⟨_, rfl⟩, rfl⟩
    | cut => exact ⟨⟨_, rfl⟩, rfl⟩
    | finished absorbs => exact ⟨⟨_, rfl⟩, by simp [complete, absorbs.requests]⟩
    | endless absorbs => exact ⟨⟨_, rfl⟩, by simp [fail, absorbs.requests]⟩
    | exhausted absorbs => exact absurd (absorbs.stopped ▸ stopped) goesOn
    | requested absorbs => exact absurd (absorbs.stopped ▸ stopped) goesOn

/-- A step requests nothing past an end that is known after it. -/
theorem Step.segment_le {result : Except FetchFailure Data} {next : Retrieval} {output : Output}
    (step : retrieval.Step elapsed request result next output) {last : Nat}
    (known : next.window.finalSegment = some last) :
    ∀ asked ∈ output.requests, asked.segment ≤ last := by
  cases step with
  | stale => nofun
  | failed _ gives => cases gives <;> nofun
  | received _ receives =>
    cases receives with
    | unheard => nofun
    | refused => nofun
    | cut => nofun
    | finished absorbs => simp [complete, absorbs.requests]
    | endless absorbs => simp [fail, absorbs.requests]
    | exhausted absorbs => simp [absorbs.requests]
    | requested absorbs unfinished =>
      have within := (unfinished last known).2
      simpa [absorbs.requests, requested, issue] using within

/-- A packet after which the retrieval goes on was taken in without an error. -/
theorem Receives.exists_absorbs {data : Data} {next : Retrieval} {done : Output}
    (receives : retrieval.Receives elapsed request data next done) (live : next.stopped = false) :
    ∃ state aborted, retrieval.Absorbs request data state aborted ∧
      next.verifier = state.verifier ∧ next.window.finalSegment = state.window.finalSegment ∧
      done.delivered = (retrieval.submitted request data).verified := by
  cases receives with
  | unheard => cases live
  | refused => cases live
  | cut => cases live
  | finished => cases live
  | endless => cases live
  | exhausted absorbs => exact ⟨_, _, absorbs, rfl, rfl, by simp [absorbs.delivered]⟩
  | requested absorbs => exact ⟨_, _, absorbs, rfl, rfl, by simp [absorbs.delivered]⟩

/-- Every end of a fetch is one of the steps, as long as the running requests are those of their
slots. -/
theorem finish_step (elapsed : Duration) (result : Except FetchFailure Data)
    (owned : retrieval.window.isCurrent request.slot request.fetchId = true →
      retrieval.window.Has .running request.slot request.segment) :
    retrieval.Step elapsed request result (retrieval.finish elapsed request result).1
      (retrieval.finish elapsed request result).2 := by
  unfold finish
  split
  next current =>
    cases result with
    | ok data => exact .received (owned current) (receive_receives data)
    | error failure => exact .failed (owned current) (giveUp_givesUp (owned current) failure)
  next old => exact .stale (by simpa using old)

end steps

end Retrieval

end SegmentRetrieval
