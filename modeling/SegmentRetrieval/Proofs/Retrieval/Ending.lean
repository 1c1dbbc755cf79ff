import SegmentRetrieval.Proofs.Retrieval.Invariant
import SegmentRetrieval.Proofs.Seal.Chain

/-! # Who declares the end

The end of the content is the first number that a received packet declares, and the packet may be one
that is never authenticated: a packet for a later segment is held, may declare an end before itself,
and is then forgotten.  A packet that declares an end at or behind itself has to be delivered before
the retrieval completes.  So a completed retrieval got its end from a delivered packet, or from one
received for a segment past that end.
-/

namespace SegmentRetrieval

/-- The number of the final segment that a packet declares. -/
def Data.declared? (data : Data) : Option Nat :=
  data.finalSegment?.map UInt64.toNat

namespace Retrieval

variable {size : Nat} {messages : List Message} {retrieval : Retrieval} {output : Output}

/-- The end was declared by a packet received for a request; the packet was taken in, or it is for a
segment past the end and was not. -/
def Declared (messages : List Message) (retrieval : Retrieval) (output : Output) (last : Nat) :
    Prop :=
  ∃ request data, .completed request (.ok data) ∈ messages ∧ request ∈ output.requests ∧
    data.declared? = some last ∧
      (retrieval.verifier.Took output.delivered request.segment data ∨
        last < request.segment ∧ ¬ retrieval.Seen output request.segment)

theorem Declared.mono {last : Nat} (declared : Declared messages retrieval output last)
    {more : List Message} {next : Retrieval} {after : Output}
    (later : ∀ message ∈ messages, message ∈ more)
    (requests : ∀ request ∈ output.requests, request ∈ after.requests)
    (verifier : next.verifier = retrieval.verifier) (delivered : after.delivered = output.delivered) :
    Declared more next after last := by
  obtain ⟨request, data, received, issued, reads, place⟩ := declared
  refine ⟨request, data, later _ received, requests _ issued, reads, ?_⟩
  simpa only [Seen, verifier, delivered] using place

/-- Once something past the end is accepted, the packet that declared the end was delivered, or it is
for a segment past the end that was not. -/
theorem Declared.delivered_or_past {last : Nat} (declared : Declared messages retrieval output last)
    (accepts : retrieval.verifier.Accepts output.delivered)
    (past : last < retrieval.verifier.nextSegment) :
    (∃ verified ∈ output.delivered, verified.data.declared? = some last) ∨
      ∃ request data, .completed request (.ok data) ∈ messages ∧ request ∈ output.requests ∧
        data.declared? = some last ∧ last < request.segment ∧
          ∀ verified ∈ output.delivered, verified.segment ≠ request.segment := by
  obtain ⟨request, data, received, issued, reads, (⟨held, found, _⟩ | ⟨verified, member, _, rfl⟩) |
    ⟨beyond, unseen⟩⟩ := declared
  · have later := (accepts.held _ held found).1
    rw [← accepts.next] at later
    refine .inr ⟨request, data, received, issued, reads, by omega, ?_⟩
    intro verified member number
    have accepted := accepts.mem_log_iff.mp ⟨verified, member, number⟩
    omega
  · exact .inl ⟨verified, member, reads⟩
  · refine .inr ⟨request, data, received, issued, reads, beyond, ?_⟩
    intro verified member number
    exact unseen ⟨verified.data, .inr ⟨verified, member, number, rfl⟩⟩

/-- A packet taken in keeps who declared the end, or declares it. -/
theorem Declared.absorbed {request : Request} {data : Data} {state : Retrieval} {aborted : Output}
    (sound : Sound size none retrieval output)
    (runs : retrieval.window.Has .running request.slot request.segment)
    (issued : request ∈ output.requests)
    (before : ∀ last, retrieval.window.finalSegment = some last →
      Declared messages retrieval output last)
    (absorbs : retrieval.Absorbs request data state aborted) {last : Nat}
    (known : state.window.finalSegment = some last) :
    Declared (messages ++ [.completed request (.ok data)]) state
      (output ++ (.ofVerified (retrieval.submitted request data).verified ++ aborted)) last := by
  cases absorbs with
  | silent admits _ =>
    have took := sound.took_taken runs admits.sound
    obtain ⟨first, packet, received, asked, reads, place⟩ := before last known
    refine ⟨first, packet, List.mem_append_left _ received, List.mem_append_left _ asked, reads, ?_⟩
    rw [Output.append_nil]
    refine place.imp (fun here => (took ..).mpr (.inr here)) ?_
    rintro ⟨beyond, unseen⟩
    -- the new packet is for a segment within the end, so it is not the one that was forgotten
    refine ⟨beyond, ?_⟩
    rintro ⟨other, here⟩
    rcases (took ..).mp here with ⟨same, _⟩ | old
    · have within := sound.running_le last known _ _ runs
      omega
    · exact unseen ⟨other, old⟩
  | @told final admits unknown reads _ =>
    cases known
    have accepts := (sound.taken runs admits.sound).accepts
    have delivered : (output ++ (.ofVerified (retrieval.submitted request data).verified ++
        ((retrieval.taken request data).told final.toNat).2)).delivered =
          (output ++ .ofVerified (retrieval.submitted request data).verified).delivered := by
      simp [told]
    refine ⟨request, data, List.mem_append_right _ (List.mem_singleton_self _),
      List.mem_append_left _ issued, by rw [Data.declared?, reads]; rfl, ?_⟩
    rw [Seen, delivered]
    simp only [told, verifier_abort, Verifier.took_discardBeyond]
    rcases (sound.took_taken runs admits.sound _ _).mpr (.inl ⟨rfl, rfl⟩) with
      ⟨held, found, same⟩ | logged
    · -- the packet is held; if it lies past the end that it declares, it is forgotten at once
      by_cases within : request.segment ≤ final.toNat
      · exact .inl (.inl ⟨within, held, found, same⟩)
      · refine .inr ⟨by omega, ?_⟩
        rintro ⟨other, ⟨_, _⟩ | ⟨verified, member, number, _⟩⟩
        · contradiction
        · have later := (accepts.held _ held found).1
          rw [← accepts.next] at later
          have earlier := accepts.mem_log_iff.mp ⟨verified, member, number⟩
          omega
    · exact .inl (.inr logged)

/-- Every step that does not stop the retrieval keeps who declared the end. -/
theorem Declared.step {elapsed : Duration} {request : Request} {result : Except FetchFailure Data}
    {next : Retrieval} {done : Output} (sound : Sound size none retrieval output)
    (issued : request ∈ output.requests)
    (before : ∀ last, retrieval.window.finalSegment = some last →
      Declared messages retrieval output last)
    (step : retrieval.Step elapsed request result next done) (live : next.stopped = false)
    {last : Nat} (known : next.window.finalSegment = some last) :
    Declared (messages ++ [.completed request result]) next (output ++ done) last := by
  have kept : ∀ {declared}, retrieval.window.finalSegment = some declared →
      next.verifier = retrieval.verifier → done.delivered = [] →
      Declared (messages ++ [.completed request result]) next (output ++ done) declared :=
    fun known verifier nothing => (before _ known).mono (fun _ => List.mem_append_left _)
      (fun _ => List.mem_append_left _) verifier (by simp [nothing])
  cases step with
  | stale => exact kept known rfl rfl
  | failed runs gives =>
    cases gives with
    | fatal => cases live
    | ignored => exact kept known rfl rfl
    | lost => cases live
    | remembered => exact kept known rfl (by simp)
  | received runs receives =>
    cases receives with
    | unheard => cases live
    | refused => cases live
    | cut => cases live
    | finished => cases live
    | endless => cases live
    | exhausted absorbs => exact .absorbed sound runs issued before absorbs known
    | requested absorbs =>
      refine (Declared.absorbed sound runs issued before absorbs known).mono (fun _ => id) ?_ rfl ?_
      · intro request member
        simp only [Output.requests_append, List.mem_append] at member ⊢
        grind
      · simp

/-- The end that a retrieval knows was declared by a packet. -/
theorem Run.declared (nonempty : 0 < size) (run : Run size messages retrieval output)
    (live : retrieval.stopped = false) :
    ∀ last, retrieval.window.finalSegment = some last →
      Declared messages retrieval output last :=
  run.induction_live nonempty (motive := fun messages retrieval output =>
      ∀ last, retrieval.window.finalSegment = some last →
        Declared messages retrieval output last)
    nofun (fun _ sound issued step live before _ => .step sound issued before step live)
    (fun _ before last known => before last known) live

/-- The step that completes a retrieval knows the end and has delivered everything up to it. -/
theorem Step.completed {elapsed : Duration} {request : Request} {result : Except FetchFailure Data}
    {next : Retrieval} {done : Output} {summary : Summary}
    (step : retrieval.Step elapsed request result next done)
    (completed : .completed summary ∈ done.events) :
    ∃ data state aborted last, result = .ok data ∧
      retrieval.window.Has .running request.slot request.segment ∧
      retrieval.Absorbs request data state aborted ∧ state.window.finalSegment = some last ∧
      last < state.verifier.nextSegment ∧ next.window.finalSegment = some last ∧
      summary = ⟨state.verifier.nextSegment, state.bytes, elapsed⟩ ∧ done.requests = [] ∧
      done.events = (retrieval.submitted request data).verified.map .segment ++
        [.completed summary] := by
  cases step with
  | stale => nomatch completed
  | failed runs gives => cases gives <;> simp [fail] at completed
  | @received data _ _ runs receives =>
    cases receives with
    | unheard => simp [-List.map_take] at completed
    | refused => simp [fail] at completed
    | cut => simp [fail] at completed
    | @finished state aborted last absorbs known past =>
      have reported : state.listening = true ∧
          summary = ⟨state.verifier.nextSegment, state.bytes, elapsed⟩ := by
        simpa [complete, absorbs.events] using completed
      refine ⟨data, state, aborted, last, rfl, runs, absorbs, known, past, known, reported.2, ?_, ?_⟩
      · simp [complete, absorbs.requests]
      · simp [complete, absorbs.events, reported]
    | endless absorbs => simp [fail, absorbs.events] at completed
    | exhausted absorbs => simp [absorbs.events] at completed
    | requested absorbs => simp [absorbs.events] at completed

/-- What has been delivered after the completing step is what the packet taken in has brought. -/
theorem Absorbs.delivered_completed {request : Request} {data : Data} {state : Retrieval}
    {aborted history done : Output} {summary : Summary}
    (absorbs : retrieval.Absorbs request data state aborted)
    (events : done.events = (retrieval.submitted request data).verified.map .segment ++
      [.completed summary]) :
    (history ++ done).delivered = (history ++
      (.ofVerified (retrieval.submitted request data).verified ++ aborted)).delivered := by
  rw [Output.delivered_append, Output.delivered_of_events events rfl]
  simp [absorbs.delivered]

/-! ## A packet that is never authenticated -/

/-- A packet for segment 1 that nobody signed; it declares that segment 0 is the final one. -/
def stray : Data where
  name := Name.appendSegment ⟨[]⟩ 1
  content := Content.encode ⟨[], none⟩
  finalBlock := some (.ofSegment 0)
  signature := []

/-- A retrieval with two slots that has received the stray packet waits for segment 0 only. -/
def cutShort : Retrieval where
  window :=
    { slots := [some ⟨0, 0, .running⟩, some ⟨1, 1, .succeeded⟩]
      nextSegment := 2, finalSegment := some 0, nextFetchId := 2 }
  fetches := [some ⟨0, 0, 0⟩, none]

theorem finish_stray : (opened 2 2).finish .zero ⟨1, 1, 1⟩ (.ok stray) = (cutShort, {}) := by
  have sized : Content.Sized ⟨[], none⟩ := ⟨by decide, nofun⟩
  have reads : stray.readContent = .ok ⟨[], none⟩ := Content.decode_encode sized
  have declares : stray.finalSegment? = some 0 := by decide
  have received : (opened 2 2).finish .zero ⟨1, 1, 1⟩ (.ok stray) =
      receive { opened 2 2 with fetches := [some ⟨0, 0, 0⟩, none] } .zero 1 1 stray := rfl
  rw [received]
  unfold receive
  simp only [opened, Verifier.submit_early Nat.zero_lt_one reads, declares]
  rfl

theorem finish_cutShort {packet : Data} {content : Content} (covered : packet.verify = .ok ())
    (reads : packet.readContent = .ok content) :
    (cutShort.finish .zero ⟨0, 0, 0⟩ (.ok packet)).1.window.finalSegment = some 0 ∧
      (cutShort.finish .zero ⟨0, 0, 0⟩ (.ok packet)).2.events =
        [.segment ⟨0, content.payload, packet⟩,
          .completed ⟨1, 0 + (content.payload.length + 0), .zero⟩] := by
  have received : cutShort.finish .zero ⟨0, 0, 0⟩ (.ok packet) =
      receive { cutShort with fetches := [none, none] } .zero 0 0 packet := rfl
  rw [received]
  unfold receive
  simp only [cutShort, Verifier.submit_zero covered reads]
  -- what the packet declares comes too late to count
  cases packet.finalSegment? with
  | none => exact ⟨rfl, rfl⟩
  | some last => exact ⟨rfl, rfl⟩

theorem Run.received_stray : Run 2 [.completed ⟨1, 1, 1⟩ (.ok stray)] cutShort
    { requests := [⟨0, 0, 0⟩, ⟨1, 1, 1⟩] } := by
  have run := Run.first (show 1 < 2 by decide) .zero (.ok stray)
  rwa [finish_stray] at run

/-- The stray packet and then a genuine segment 0 complete a retrieval. -/
theorem Run.cutShort {packet : Data} {content : Content} (covered : packet.verify = .ok ())
    (reads : packet.readContent = .ok content) : ∃ retrieval output summary,
      Run 2 [.completed ⟨1, 1, 1⟩ (.ok stray), .completed ⟨0, 0, 0⟩ (.ok packet)] retrieval output ∧
        retrieval.window.finalSegment = some 0 ∧
        output.events = [.segment ⟨0, content.payload, packet⟩, .completed summary] := by
  have run := Run.received_stray.handle .zero (.completed ⟨0, 0, 0⟩ (.ok packet)) fun request same =>
    Option.some.inj same ▸ List.mem_cons_self ..
  rw [(Run.received_stray.sound (by decide) rfl).handle_completed (by decide) rfl .zero
    (List.mem_cons_self ..)] at run
  obtain ⟨known, events⟩ := finish_cutShort covered reads
  exact ⟨_, _, _, run, known, events⟩

/-! ## The end of a completed retrieval -/

/-- A packet that is never authenticated can declare the end: the genuine chain has three packets, and
none that is delivered says that it ends with segment 0. -/
theorem completed_end_undelivered : ∃ packet retrieval output summary,
    (Chain.sealPieces ⟨[]⟩ [[1], [2], [3]] .everySegment).head? = some packet ∧
      Run 2 [.completed ⟨1, 1, 1⟩ (.ok stray), .completed ⟨0, 0, 0⟩ (.ok packet)] retrieval output ∧
      .completed summary ∈ output.events ∧ retrieval.window.finalSegment = some 0 ∧
      ∀ verified ∈ output.delivered, verified.data.declared? ≠ some 0 := by
  obtain ⟨first, place⟩ : ∃ first,
      (Chain.segments ⟨[]⟩ [[1], [2], [3]] .everySegment)[0]? = some first := ⟨_, rfl⟩
  obtain ⟨_, payload, packet⟩ := Chain.getElem?_segments_eq_some_iff.mp place
  have sized : first.payload.length < UInt64.size := by
    rw [← Option.some.inj payload]
    decide
  have declares := Chain.finalSegment?_of_getElem?_segments place rfl
  obtain ⟨retrieval, output, summary, run, known, events⟩ := Run.cutShort
    (Chain.verify_of_getElem?_segments place) (Chain.readContent_of_getElem?_segments place sized)
  refine ⟨first.data, retrieval, output, summary, ?_, run, ?_, known, ?_⟩
  · rw [List.head?_eq_getElem?, packet]
  · rw [events]
    exact List.mem_cons_of_mem _ (List.mem_singleton_self _)
  · intro verified member
    rw [Output.delivered, events] at member
    cases List.mem_singleton.mp member
    rw [Data.declared?, declares]
    decide

/-- The end of a completed retrieval is declared by a delivered packet, or by one that was received
for a segment past that end and never delivered. -/
theorem completed_end_declared (nonempty : 0 < size) (run : Run size messages retrieval output)
    {summary : Summary} (completed : .completed summary ∈ output.events) :
    ∃ last, retrieval.window.finalSegment = some last ∧
      output.events = output.delivered.map .segment ++ [.completed summary] ∧
      ((∃ verified ∈ output.delivered, verified.data.declared? = some last) ∨
        ∃ request data, .completed request (.ok data) ∈ messages ∧ request ∈ output.requests ∧
          data.declared? = some last ∧ last < request.segment ∧
            ∀ verified ∈ output.delivered, verified.segment ≠ request.segment) := by
  cases stopped : retrieval.stopped with
  | false => exact absurd completed ((run.sound nonempty stopped).not_mem_events rfl)
  | true =>
    obtain ⟨earlier, before, history, begun, live, sound, ⟨_, _, rfl⟩ |
      ⟨elapsed, request, result, next, done, issued, within, step, _, _, same, rfl⟩⟩ :=
        run.last_step nonempty stopped
    · exact absurd (by simpa using completed) (sound.not_mem_events rfl)
    · -- the last step completed, so it took a packet in
      rw [Output.events_append, List.mem_append] at completed
      obtain ⟨data, state, aborted, last, rfl, runs, absorbs, known, past, kept, _, requests,
        events⟩ := step.completed (completed.resolve_left (sound.not_mem_events rfl))
      have handed := Output.delivered_of_events events rfl
      refine ⟨last, same ▸ kept, ?_, ?_⟩
      · rw [Output.events_append, events, sound.events, Output.delivered_append, handed,
          List.map_append, List.append_assoc]
      · have declared := Declared.absorbed sound runs issued (begun.declared nonempty live)
          absorbs known
        rw [absorbs.delivered_completed events]
        refine (declared.delivered_or_past (sound.absorbed runs absorbs).accepts past).imp_right ?_
        rintro ⟨declaring, packet, received, asked, reads, beyond, unseen⟩
        refine ⟨declaring, packet, within.subset received, ?_, reads, beyond, unseen⟩
        simpa [requests, absorbs.requests] using asked

/-- The retrieval that the stray packet cuts short got its end from that packet. -/
theorem completed_end_declared_stray : ∃ retrieval output last,
    Run 2 [.completed ⟨1, 1, 1⟩ (.ok stray),
        .completed ⟨0, 0, 0⟩ (.ok (Chain.sealSegment ⟨[]⟩ .omitted 0 0 [1] none))] retrieval output ∧
      retrieval.window.finalSegment = some last := by
  obtain ⟨retrieval, output, summary, run, _, events⟩ := Run.cutShort
    (Chain.verify_sealSegment ⟨[]⟩ .omitted 0 0 [1] none)
    (Chain.readContent_sealSegment ⟨by decide, nofun⟩)
  have completed : .completed summary ∈ output.events := by
    rw [events]
    exact List.mem_cons_of_mem _ (List.mem_singleton_self _)
  obtain ⟨last, known, _⟩ := completed_end_declared (by decide) run completed
  exact ⟨retrieval, output, last, run, known⟩

end Retrieval

end SegmentRetrieval
