import SegmentRetrieval.Proofs.Retrieval.Invariant
import SegmentRetrieval.Proofs.Verifier.Genuine

/-! # Reassembly in any order

A face that serves a sealed chain answers each request for one of its segments with that packet, and
fails each request past its end.  In whatever order the fetches end, the retrieval gathers packets of
the chain only, learns the end from the first of them, and forgives every failure.  So it goes on
until it has delivered the whole chain; it never waits for a fetch that has ended already, and it
requests no segment past the chain but those it requested at the start.
-/

namespace SegmentRetrieval

namespace Chain

/-- Pieces whose number and sizes fit the fields that declare them. -/
structure Fits (pieces : List Bytes) : Prop where
  nonempty : pieces ≠ []
  counted : pieces.length ≤ UInt64.size
  sized : ∀ piece ∈ pieces, piece.length < UInt64.size

/-- Any payload in memory splits into pieces that fit. -/
theorem fits_splitPayload {payload : Bytes} (sized : payload.length < UInt64.size)
    (segmentSize : Nat) : Fits (splitPayload payload segmentSize) where
  nonempty := splitPayload_ne_nil payload segmentSize
  counted := by
    have bound := length_splitPayload_le payload segmentSize
    have positive : 1 < UInt64.size := by decide
    omega
  sized := fun _ member => Nat.lt_of_le_of_lt (length_le_of_mem_splitPayload member) sized

variable {base : Name} {pieces : List Bytes} (fits : Fits pieces)
include fits

theorem Fits.sized_segments : ∀ segment ∈ segments base pieces .everySegment,
    segment.payload.length < UInt64.size := by
  intro segment member
  obtain ⟨_, place⟩ := List.mem_iff_getElem?.mp member
  exact fits.sized _ (List.mem_of_getElem? (getElem?_segments_eq_some_iff.mp place).2.1)

/-- Every packet of the chain declares the last one. -/
theorem Fits.exists_finalSegment? {n : Nat} {packet : Data}
    (place : (sealPieces base pieces .everySegment)[n]? = some packet) :
    ∃ last, packet.finalSegment? = some last ∧ last.toNat + 1 = pieces.length := by
  obtain ⟨payload, segment⟩ := exists_getElem?_segments place
  refine ⟨_, finalSegment?_of_getElem?_segments segment rfl, ?_⟩
  have positive := List.length_pos_iff.mpr fits.nonempty
  have bound := fits.counted
  rw [UInt64.toNat_ofNat_of_lt' (by omega)]
  omega

end Chain

namespace Retrieval

/-- How a face that serves a chain ends the fetch of a request: with the packet of its segment, or
with some failure where the chain has none. -/
def Serves (chain : List Data) (request : Request) (result : Except FetchFailure Data) : Prop :=
  match chain[request.segment]? with
  | some packet => result = .ok packet
  | none => ∃ failure, result = .error failure

/-- The packets that such a face sends are those of the chain. -/
theorem Serves.place {chain : List Data} {request : Request} {packet : Data}
    (serves : Serves chain request (.ok packet)) : chain[request.segment]? = some packet := by
  unfold Serves at serves
  split at serves
  next place =>
    cases serves
    exact place
  next =>
    obtain ⟨_, same⟩ := serves
    cases same

/-- The messages of a face that serves a chain and ends each fetch at most once. -/
structure Served (chain : List Data) (messages : List Message) : Prop where
  once : (messages.filterMap Message.request?).Nodup
  served : ∀ message ∈ messages,
    ∃ request result, message = .completed request result ∧ Serves chain request result

/-- What holds while a chain is gathered. -/
structure Gathers (size : Nat) (base : Name) (pieces : List Bytes) (retrieval : Retrieval)
    (output : Output) : Prop where
  genuine : ∀ n packet, retrieval.verifier.Took output.delivered n packet →
    (Chain.sealPieces base pieces .everySegment)[n]? = some packet
  failed_ge : ∀ i n, retrieval.window.Has .failed i n → pieces.length ≤ n
  ends : ∀ last, retrieval.window.finalSegment = some last → last + 1 = pieces.length
  /-- The first packet declares the end. -/
  unseen : retrieval.window.finalSegment = none → ∀ n, ¬ retrieval.Seen output n
  bounded : retrieval.window.nextSegment ≤ max size pieces.length

namespace Gathers

variable {size : Nat} {base : Name} {pieces : List Bytes} {retrieval : Retrieval} {output : Output}
  {request : Request}

theorem opened : Gathers size base pieces (opened size size)
    { requests := (List.range size).map fun i => ⟨i, i, i⟩ } where
  genuine := fun n packet took => absurd ⟨packet, took⟩ (Sound.not_seen_opened size n)
  failed_ge := by
    rintro i n ⟨fetchId, place⟩
    rw [Sound.slot?_opened] at place
    split at place
    · cases place
    · cases place
  ends := nofun
  unseen := fun _ => Sound.not_seen_opened size
  bounded := Nat.le_max_left ..

/-- What is delivered of a chain is its beginning. -/
theorem delivered_prefix {free : Option Nat} (fits : Chain.Fits pieces)
    (sound : Sound size free retrieval output)
    (gathers : Gathers size base pieces retrieval output) :
    output.delivered <+: Chain.segments base pieces .everySegment :=
  sound.accepts.linked.prefix_of_genuine fits.sized_segments fun verified member =>
    gathers.genuine _ _ (.inr ⟨verified, member, rfl, rfl⟩)

/-- Once something past the end is expected, the whole chain is delivered. -/
theorem delivered_eq {free : Option Nat} {last : Nat} (fits : Chain.Fits pieces)
    (sound : Sound size free retrieval output)
    (gathers : Gathers size base pieces retrieval output)
    (known : retrieval.window.finalSegment = some last)
    (past : last < retrieval.verifier.nextSegment) :
    output.delivered = Chain.segments base pieces .everySegment := by
  have begins := gathers.delivered_prefix fits sound
  have final := gathers.ends last known
  have length := begins.length_le
  rw [sound.accepts.next] at past
  rw [Chain.length_segments] at length
  refine begins.eq_of_length ?_
  rw [Chain.length_segments]
  omega

theorem requesting {slot last : Nat} (gathers : Gathers size base pieces retrieval output)
    (inside : slot < retrieval.window.size) (known : retrieval.window.finalSegment = some last)
    (requests : retrieval.window.nextSegment ≤ last) :
    Gathers size base pieces (retrieval.requested slot).1
      (output ++ (retrieval.requested slot).2) := by
  refine ⟨?_, ?_, gathers.ends, ?_, ?_⟩
  · simpa using gathers.genuine
  · intro i n fails
    have before := (Window.has_issued_iff inside).mp fails
    split at before
    · cases before.1
    · exact gathers.failed_ge i n before
  · intro unknown
    exact nomatch known.symm.trans unknown
  · have final := gathers.ends last known
    change retrieval.window.nextSegment + 1 ≤ _
    omega

variable (fits : Chain.Fits pieces) (sound : Sound size none retrieval output)
  (gathers : Gathers size base pieces retrieval output)
  (runs : retrieval.window.Has .running request.slot request.segment)
include fits sound gathers runs

/-- A failure past the chain is survived: where the end is known, nothing past it runs, and where it
is not, segment 0 still runs. -/
theorem givesUp {failure : FetchFailure} {next : Retrieval} {done : Output}
    (past : pieces.length ≤ request.segment)
    (gives : retrieval.GivesUp request failure next done) :
    next.stopped = retrieval.stopped ∧ Gathers size base pieces next (output ++ done) := by
  have positive := List.length_pos_iff.mpr fits.nonempty
  cases gives with
  | fatal known within =>
    -- the known end is that of the chain, and the failure lies past it
    have last := gathers.ends _ known
    omega
  | ignored known _ =>
    have within := sound.running_le _ known _ _ runs
    have last := gathers.ends _ known
    omega
  | lost unknown idle =>
    -- while no packet has come, segment 0 runs and is not canceled by a later failure
    have requested := sound.ledger.has_lt runs
    have waiting : ∃ i, retrieval.window.Has .running i 0 := by
      rcases sound.accounted 0 (by omega) with seen | waiting | ⟨_, known, _⟩ | ⟨_, i, m, fails, le⟩
      · exact absurd seen (gathers.unseen unknown 0)
      · exact waiting
      · rw [unknown] at known
        cases known
      · have beyond := gathers.failed_ge i m fails
        omega
    obtain ⟨i, first⟩ := waiting
    have away : i ≠ request.slot := by
      rintro rfl
      have same := (first.unique runs).2
      omega
    have busy : 0 < (retrieval.window.remembered request.slot request.segment).running :=
      Window.running_pos_iff.mpr
        ⟨i, 0, Window.has_running_remembered_iff.mpr ⟨Nat.zero_le _, away, first⟩⟩
    omega
  | remembered unknown busy =>
    refine ⟨rfl, ?_⟩
    constructor
    · simpa using gathers.genuine
    · intro i n fails
      rcases (Window.has_failed_remembered_iff runs).mp fails with ⟨_, rfl⟩ | before
      · exact past
      · exact gathers.failed_ge i n before
    · exact gathers.ends
    · intro _ n
      simpa [Seen] using gathers.unseen unknown n
    · exact gathers.bounded

/-- A packet of the chain leads to a state that knows the end. -/
theorem absorbed {packet : Data}
    (place : (Chain.sealPieces base pieces .everySegment)[request.segment]? = some packet)
    {state : Retrieval} {aborted : Output}
    (absorbs : retrieval.Absorbs request packet state aborted) :
    (∃ last, state.window.finalSegment = some last) ∧ Gathers size base pieces state
      (output ++ (.ofVerified (retrieval.submitted request packet).verified ++ aborted)) := by
  obtain ⟨last, reads, final⟩ := fits.exists_finalSegment? place
  have known : ∃ last, state.window.finalSegment = some last ∧ last + 1 = pieces.length := by
    cases absorbs with
    | silent _ silent =>
      -- the packet declares the end, so it was known before
      obtain ⟨last, known⟩ := Option.ne_none_iff_exists'.mp
        (silent.resolve_left (by rw [reads]; nofun))
      exact ⟨last, known, gathers.ends last known⟩
    | told _ _ declared =>
      rw [reads] at declared
      cases declared
      exact ⟨last.toNat, rfl, final⟩
  obtain ⟨last, known, final⟩ := known
  refine ⟨⟨last, known⟩, ?_, ?_, ?_, ?_, ?_⟩
  · intro n other took
    rcases sound.took_absorbed runs absorbs took with ⟨rfl, rfl⟩ | before
    · exact place
    · exact gathers.genuine n other before
  · exact fun i n fails => gathers.failed_ge i n (absorbs.failed fails)
  · intro other same
    rw [known] at same
    cases same
    exact final
  · intro unknown
    rw [known] at unknown
    cases unknown
  · rw [absorbs.nextSegment]
    exact gathers.bounded

/-- A packet of the chain is taken in, and the retrieval goes on or completes. -/
theorem receives {elapsed : Duration} {packet : Data}
    (place : (Chain.sealPieces base pieces .everySegment)[request.segment]? = some packet)
    {next : Retrieval} {done : Output}
    (receives : retrieval.Receives elapsed request packet next done)
    (heard : next.listening = true) :
    (next.stopped = retrieval.stopped ∧ Gathers size base pieces next (output ++ done)) ∨
      (next.stopped = true ∧ done.requests = [] ∧
        (output ++ done).events = (Chain.segments base pieces .everySegment).map .segment ++
          [.completed ⟨pieces.length, pieces.flatten.length, elapsed⟩]) := by
  have valid : (retrieval.submitted request packet).error = none :=
    sound.accepts.error_submit_eq_none fits.sized_segments gathers.genuine place
  have goesOn : ∀ {state aborted}, retrieval.Absorbs request packet state aborted →
      state.stopped = retrieval.stopped := fun absorbs => by cases absorbs <;> rfl
  cases receives with
  | unheard => cases heard
  | refused reads =>
    rw [valid] at reads
    cases reads
  | cut admits unknown reads failed within =>
    -- every failure lies past the end that the packet declares
    obtain ⟨last, declared, final⟩ := fits.exists_finalSegment? place
    rw [reads] at declared
    cases declared
    have beyond := gathers.failed_ge _ _ ((Window.has_markSucceeded_iff (by decide)).mp failed).2
    omega
  | @finished state aborted last absorbs known past =>
    obtain ⟨_, after⟩ := gathers.absorbed fits sound runs place absorbs
    have taken := sound.absorbed runs absorbs
    have whole := after.delivered_eq fits taken known past
    right
    refine ⟨rfl, by simp [complete, absorbs.requests], ?_⟩
    -- the counts of the state are those of what was delivered, which is the chain
    have summary : (⟨state.verifier.nextSegment, state.bytes, elapsed⟩ : Summary) =
        ⟨pieces.length, pieces.flatten.length, elapsed⟩ := by
      rw [taken.accepts.next, taken.bytes, whole, Chain.length_segments, Verified.foldl_addBytes,
        Chain.map_payload_segments, Nat.zero_add]
    rw [← Output.append_assoc _ aborted, ← Output.append_assoc, Output.events_append, taken.events,
      whole, complete, events_stopWith, if_pos (show state.listening = true from heard), summary]
  | endless absorbs unknown =>
    obtain ⟨⟨last, known⟩, _⟩ := gathers.absorbed fits sound runs place absorbs
    rw [known] at unknown
    cases unknown
  | exhausted absorbs =>
    exact .inl ⟨goesOn absorbs, (gathers.absorbed fits sound runs place absorbs).2⟩
  | @requested state aborted absorbs unfinished unfailed =>
    obtain ⟨⟨last, known⟩, after⟩ := gathers.absorbed fits sound runs place absorbs
    have inside := (sound.absorbed runs absorbs).slots ▸ sound.slot_lt runs
    rw [← Output.append_assoc, ← Output.append_assoc, Output.append_assoc output]
    exact .inl ⟨(goesOn absorbs : state.stopped = _),
      after.requesting inside known (unfinished last known).2⟩

end Gathers

variable {size : Nat} {base : Name} {pieces : List Bytes} {messages : List Message}
  {retrieval : Retrieval} {output : Output}

/-- The end of a fetch, as a face that serves the chain answers it, leaves the retrieval gathering or
completes it with the whole chain. -/
theorem Gathers.step {elapsed : Duration} {request : Request} {result : Except FetchFailure Data}
    {next : Retrieval} {done : Output} (fits : Chain.Fits pieces)
    (sound : Sound size none retrieval output)
    (gathers : Gathers size base pieces retrieval output)
    (serves : Serves (Chain.sealPieces base pieces .everySegment) request result)
    (step : retrieval.Step elapsed request result next done) (heard : next.listening = true) :
    (next.stopped = retrieval.stopped ∧ Gathers size base pieces next (output ++ done)) ∨
      (next.stopped = true ∧ done.requests = [] ∧
        (output ++ done).events = (Chain.segments base pieces .everySegment).map .segment ++
          [.completed ⟨pieces.length, pieces.flatten.length, elapsed⟩]) := by
  cases step with
  | stale =>
    rw [Output.append_nil]
    exact .inl ⟨rfl, gathers⟩
  | failed runs gives =>
    unfold Serves at serves
    split at serves
    next => cases serves
    next none =>
      rw [List.getElem?_eq_none_iff, Chain.length_sealPieces] at none
      exact .inl (gathers.givesUp fits sound runs none gives)
  | received runs receives => exact gathers.receives fits sound runs serves.place receives heard

theorem Served.of_prefix {chain : List Data} {earlier : List Message}
    (served : Served chain messages) (shorter : earlier <+: messages) : Served chain earlier where
  once := served.once.sublist (shorter.sublist.filterMap _)
  served := fun message member => served.served message (shorter.subset member)

theorem Served.serves {chain : List Data} {request : Request} {result : Except FetchFailure Data}
    (served : Served chain (messages ++ [.completed request result])) :
    Serves chain request result := by
  obtain ⟨_, _, same, serves⟩ := served.served _ (List.mem_append_right _ (List.mem_singleton_self _))
  cases same
  exact serves

/-- As long as it goes on, a retrieval that is served a chain gathers it. -/
theorem Run.gathers (nonempty : 0 < size) (fits : Chain.Fits pieces)
    (run : Run size messages retrieval output) (heard : retrieval.listening = true)
    (served : Served (Chain.sealPieces base pieces .everySegment) messages)
    (live : retrieval.stopped = false) : Gathers size base pieces retrieval output := by
  refine run.induction_live nonempty (motive := fun messages retrieval output =>
    retrieval.listening = true → Served (Chain.sealPieces base pieces .everySegment) messages →
      Gathers size base pieces retrieval output) (fun _ _ => .opened) ?_ ?_ live heard served
  · intro messages retrieval output elapsed request result next done _ sound _ step live before heard
      served
    rcases (before (step.listening heard) (served.of_prefix (List.prefix_append ..))).step fits sound
      served.serves step heard with ⟨_, gathers⟩ | ⟨stopped, _⟩
    · exact gathers
    · rw [live] at stopped
      cases stopped
  · intro messages retrieval output events before heard served
    have gathers := before (retrieval.listening_of_leaveAfter heard) served
    exact ⟨gathers.genuine, gathers.failed_ge, gathers.ends, gathers.unseen, gathers.bounded⟩

theorem Served.length_eq {chain : List Data} (served : Served chain messages) :
    (messages.filterMap Message.request?).length = messages.length := by
  rw [List.filterMap_length_eq_length]
  intro message member
  obtain ⟨request, result, rfl, _⟩ := served.served message member
  rfl

/-- A retrieval that goes on waits for a fetch whose end it has not handled. -/
theorem Run.exists_awaited (nonempty : 0 < size) (run : Run size messages retrieval output)
    (live : retrieval.stopped = false) : ∃ request ∈ output.requests,
      request ∉ messages.filterMap Message.request? ∧
        retrieval.window.isCurrent request.slot request.fetchId = true := by
  have sound := run.sound nonempty live
  obtain ⟨i, n, runs⟩ := Window.running_pos_iff.mp (sound.running_pos nonempty)
  have asked := sound.ledger.mem_of_has runs
  exact ⟨_, asked, fun ended => run.not_running_of_handled nonempty live _ ended runs,
    (sound.ledger.isCurrent_iff asked).mpr runs⟩

section served

variable (nonempty : 0 < size) (fits : Chain.Fits pieces)
  (run : Run size messages retrieval output) (heard : retrieval.listening = true)
  (served : Served (Chain.sealPieces base pieces .everySegment) messages)
include nonempty fits run heard served

/-- A retrieval that is served a chain and has stopped was stopped by a message that completed it. -/
theorem Run.exists_completing (stopped : retrieval.stopped = true) :
    ∃ earlier before history elapsed request result next done,
      Run size earlier before history ∧ before.stopped = false ∧
        Sound size none before history ∧ Gathers size base pieces before history ∧
        earlier ++ [.completed request result] <+: messages ∧
        before.Step elapsed request result next done ∧ done.requests = [] ∧
        output = history ++ done ∧
        output.events = (Chain.segments base pieces .everySegment).map .segment ++
          [.completed ⟨pieces.length, pieces.flatten.length, elapsed⟩] := by
  obtain ⟨earlier, before, history, begun, live, sound, ⟨within, _, _⟩ |
    ⟨elapsed, request, result, next, done, issued, within, step, ended, listened, _, rfl⟩⟩ :=
      run.last_step nonempty stopped
  · obtain ⟨_, _, same, _⟩ :=
      served.served .cancel (within.subset (List.mem_append_right _ (List.mem_singleton_self _)))
    cases same
  · have before := served.of_prefix within
    have gathers := begun.gathers nonempty fits (step.listening (listened heard))
      (before.of_prefix (List.prefix_append ..)) live
    rcases gathers.step fits sound before.serves step (listened heard) with
      ⟨goesOn, _⟩ | ⟨_, requests, events⟩
    · rw [ended, live] at goesOn
      cases goesOn
    · exact ⟨_, _, _, elapsed, request, result, _, _, begun, live, sound, gathers, within, step,
        requests, rfl, events⟩

theorem Run.length_requests_le : output.requests.length ≤ max size pieces.length := by
  cases stopped : retrieval.stopped with
  | false =>
    have gathers := run.gathers nonempty fits heard served stopped
    exact (run.sound nonempty stopped).ledger.length_eq ▸ gathers.bounded
  | true =>
    obtain ⟨_, _, _, _, _, _, _, _, _, _, sound, gathers, _, _, requests, rfl, _⟩ :=
      run.exists_completing nonempty fits heard served stopped
    rw [Output.requests_append, requests, List.append_nil]
    exact sound.ledger.length_eq ▸ gathers.bounded

/-- A retrieval that has handled as many messages as it may make requests has stopped. -/
theorem Run.stopped_of_handled (all : max size pieces.length ≤ messages.length) :
    retrieval.stopped = true := by
  refine Bool.not_eq_false _ ▸ fun live => ?_
  -- the awaited request would be one more than those that may be made
  obtain ⟨request, asked, waits, _⟩ := run.exists_awaited nonempty live
  have distinct : (request :: messages.filterMap Message.request?).Nodup :=
    List.nodup_cons.mpr ⟨waits, served.once⟩
  have issued : request :: messages.filterMap Message.request? ⊆ output.requests :=
    List.cons_subset.mpr ⟨asked, fun _ => run.mem_requests_of_handled⟩
  have many := distinct.length_le_of_subset issued
  rw [List.length_cons, served.length_eq] at many
  have few := run.length_requests_le nonempty fits heard served
  omega

end served

/-! ## Any order of arrival -/

/-- The end of the fetch that slot `i` makes first, as a face that serves a chain tells it. -/
def arrival (chain : List Data) (failure : FetchFailure) (i : Nat) : Message :=
  .completed ⟨i, i, i⟩ <|
    match chain[i]? with
    | some packet => .ok packet
    | none => .error failure

theorem served_arrivals (chain : List Data) (failure : FetchFailure) {order : List Nat}
    (once : order.Nodup) : Served chain (order.map (arrival chain failure)) where
  once := by
    have asked : (order.map (arrival chain failure)).filterMap Message.request? =
        order.map fun i => ⟨i, i, i⟩ := by
      rw [List.filterMap_map]
      exact congrFun (List.filterMap_eq_map ) order
    rw [asked]
    exact List.Pairwise.map _ (fun _ _ apart same => apart (congrArg Request.slot same)) once
  served := by
    intro message member
    obtain ⟨i, _, rfl⟩ := List.mem_map.mp member
    refine ⟨_, _, rfl, ?_⟩
    unfold Serves
    split
    next packet place => simp only [place]
    next missing => exact ⟨failure, by simp only [missing]⟩

/-- The first requests end in any order, and the consumer stays. -/
theorem Run.exists_arrivals (nonempty : 0 < size) (chain : List Data) (failure : FetchFailure)
    (run : Run size messages retrieval output) (stays : retrieval.room = none) {order : List Nat}
    (asked : ∀ i ∈ order, (⟨i, i, i⟩ : Request) ∈ output.requests) : ∃ later after,
      Run size (messages ++ order.map (arrival chain failure)) later after ∧ later.room = none := by
  induction order generalizing messages retrieval output with
  | nil => exact ⟨retrieval, output, by simpa using run, stays⟩
  | cons i order ih =>
    have issued : ∀ request ∈ (arrival chain failure i).request?, request ∈ output.requests :=
      fun _ same => Option.some.inj same ▸ asked i List.mem_cons_self
    rw [List.map_cons, List.append_cons]
    exact ih (run.handle .zero _ issued) (run.room_handle nonempty stays .zero issued)
      fun j member => List.mem_append_left _ (asked j (List.mem_cons_of_mem i member))

/-- Through a window as large as the chain, whatever the order in which its packets and the failures
past it arrive, a retrieval delivers the chain and completes. -/
theorem Run.exists_gathered (base : Name) (fits : Chain.Fits pieces) (wide : pieces.length ≤ size)
    (failure : FetchFailure) {order : List Nat} (all : order.Perm (List.range size)) :
    ∃ retrieval output elapsed,
      Run size (order.map (arrival (Chain.sealPieces base pieces .everySegment) failure)) retrieval
        output ∧
      retrieval.listening = true ∧ retrieval.stopped = true ∧
      output.events = (Chain.segments base pieces .everySegment).map .segment ++
        [.completed ⟨pieces.length, pieces.flatten.length, elapsed⟩] := by
  have nonempty := Nat.lt_of_lt_of_le (List.length_pos_iff.mpr fits.nonempty) wide
  obtain ⟨retrieval, output, run, stays⟩ := Run.exists_arrivals nonempty
    (Chain.sealPieces base pieces .everySegment) failure .start (by rw [start_ofSize]; rfl)
    fun i member => by
      rw [start_ofSize]
      exact List.mem_map.mpr ⟨i, all.subset member, rfl⟩
  rw [List.nil_append] at run
  have heard : retrieval.listening = true := by
    rw [listening, stays]
    rfl
  have served := served_arrivals (Chain.sealPieces base pieces .everySegment) failure
    (all.nodup_iff.mpr List.nodup_range)
  have stopped := run.stopped_of_handled nonempty fits heard served (by
    rw [List.length_map, all.length_eq, List.length_range]
    omega)
  obtain ⟨_, _, _, elapsed, _, _, _, _, _, _, _, _, _, _, _, _, events⟩ :=
    run.exists_completing nonempty fits heard served stopped
  exact ⟨retrieval, output, elapsed, run, heard, stopped, events⟩

/-! ## Reassembly -/

/-- End-to-end reassembly.  Split any payload, seal the pieces and serve the chain in any order, with
any failures past its end: the retrieval handles at most as many messages as it makes requests, and it
makes at most one for each slot or segment; while it has not stopped, it waits for a fetch that has
not ended yet; and when it has stopped, it has delivered every piece in order, which together are the
payload, and completed. -/
theorem reassembles (nonempty : 0 < size) {payload : Bytes} (sized : payload.length < UInt64.size)
    (segmentSize : Nat) (run : Run size messages retrieval output)
    (heard : retrieval.listening = true)
    (served : Served (Chain.sealPieces base (Chain.splitPayload payload segmentSize) .everySegment)
      messages) :
    messages.length ≤ output.requests.length ∧
      output.requests.length ≤ max size (Chain.splitPayload payload segmentSize).length ∧
      (retrieval.stopped = false → ∃ request ∈ output.requests,
        request ∉ messages.filterMap Message.request? ∧
          retrieval.window.isCurrent request.slot request.fetchId = true) ∧
      (retrieval.stopped = true →
        (output.delivered.map Verified.payload).flatten = payload ∧
          ∃ elapsed, output.events =
            (Chain.segments base (Chain.splitPayload payload segmentSize) .everySegment).map
                .segment ++
              [.completed ⟨(Chain.splitPayload payload segmentSize).length, payload.length,
                elapsed⟩]) := by
  have fits := Chain.fits_splitPayload sized segmentSize
  refine ⟨?_, run.length_requests_le nonempty fits heard served, run.exists_awaited nonempty,
    fun stopped => ?_⟩
  · rw [← served.length_eq]
    exact served.once.length_le_of_subset fun request => run.mem_requests_of_handled
  · obtain ⟨_, _, _, elapsed, _, _, _, _, _, _, _, _, _, _, _, _, events⟩ :=
      run.exists_completing nonempty fits heard served stopped
    rw [Chain.flatten_splitPayload] at events
    refine ⟨?_, elapsed, events⟩
    rw [Output.delivered_of_events events rfl, Chain.map_payload_segments, Chain.flatten_splitPayload]

/-- Three pieces and a failure, which comes before the end is known, in a window of four slots. -/
theorem reassembles_shuffled : ∃ first second third failure retrieval output,
    Chain.sealPieces ⟨[]⟩ (Chain.splitPayload [1, 2, 3] 1) .everySegment = [first, second, third] ∧
      Run 4 [.completed ⟨3, 3, 3⟩ (.error failure), .completed ⟨2, 2, 2⟩ (.ok third),
        .completed ⟨0, 0, 0⟩ (.ok first), .completed ⟨1, 1, 1⟩ (.ok second)] retrieval output ∧
      retrieval.stopped = true ∧
      (output.delivered.map Verified.payload).flatten = [1, 2, 3] := by
  have split : Chain.splitPayload [1, 2, 3] 1 = [[1], [2], [3]] := by
    simp [Chain.splitPayload, Bytes.pieces]
  have fits : Chain.Fits (Chain.splitPayload [1, 2, 3] 1) :=
    Chain.fits_splitPayload (by decide) 1
  have all : [3, 2, 0, 1].Perm (List.range 4) := by decide
  obtain ⟨retrieval, output, _, run, heard, stopped, _⟩ := Run.exists_gathered ⟨[]⟩ fits
    (by rw [split]; decide) (.nacked ⟨[]⟩ .noRoute) all
  refine ⟨_, _, _, .nacked ⟨[]⟩ .noRoute, retrieval, output, by rw [split]; rfl, ?_, stopped,
    ((reassembles (by decide) (by decide) 1 run heard
      (served_arrivals _ _ (by decide))).2.2.2 stopped).1⟩
  rw [split] at run
  exact run

end Retrieval

end SegmentRetrieval
