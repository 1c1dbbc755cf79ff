import SegmentRetrieval.Proofs.Retrieval.Ending
import SegmentRetrieval.Proofs.Verifier.Cascade

/-! # Held packets past the end

A packet is judged when its segment is delivered or when an error refuses it.  Once the end is known,
no packet past it is judged any more: the held ones are forgotten, and none is requested.  But the
packet that declares the end goes to the verifier first, so the cascade that it starts may run past
the end.  `judged_beyond_end_iff` says that a held packet past the end is judged in this way only,
that is, when the cascade has accepted every packet before it and the consumer is still there.
-/

namespace SegmentRetrieval

/-- The segment that an event delivers, or whose packet it refuses. -/
def Event.judged? : Event → Option Nat
  | .segment verified => some verified.segment
  | .failed error => error.judged?
  | .completed _ => none

namespace Output

/-- The segments that are delivered or refused. -/
def judged (output : Output) : List Nat :=
  output.events.filterMap Event.judged?

@[simp] theorem judged_append (first second : Output) :
    (first ++ second).judged = first.judged ++ second.judged :=
  List.filterMap_append

@[simp] theorem judged_empty : ({} : Output).judged = [] := rfl

@[simp] theorem judged_ofVerified (verified : List Verified) :
    (ofVerified verified).judged = verified.map Verified.segment := by
  rw [judged, events_ofVerified, List.filterMap_map]
  exact congrFun (List.filterMap_eq_map (f := Verified.segment)) verified

theorem judged_of_events_eq_nil {output : Output} (silent : output.events = []) :
    output.judged = [] := by
  rw [judged, silent, List.filterMap_nil]

end Output

namespace Retrieval

variable {size : Nat} {messages : List Message} {retrieval : Retrieval} {output : Output}
  {elapsed : Duration} {request : Request}

@[simp] theorem judged_fail (error : RetrievalError) :
    (retrieval.fail error).2.judged = if retrieval.listening then error.judged?.toList else [] := by
  rw [Output.judged, fail, events_stopWith]
  split
  · cases judges : error.judged? <;> simp [Event.judged?, judges]
  · rfl

@[simp] theorem judged_complete : (retrieval.complete elapsed).2.judged = [] := by
  rw [Output.judged, complete, events_stopWith]
  split <;> rfl

@[simp] theorem judged_requested (slot : Nat) : (retrieval.requested slot).2.judged = [] := rfl

/-! ## Judgements of a step -/

/-- What the consumer takes of some events. -/
def heardOf (retrieval : Retrieval) {α : Type} (events : List α) : List α :=
  retrieval.room.elim events events.take

theorem heardOf_eq_self {α : Type} {events : List α} (heard : retrieval.Hears events.length) :
    retrieval.heardOf events = events := by
  rw [heardOf]
  cases left : retrieval.room with
  | none => rfl
  | some room => exact List.take_of_length_le (heard room left)

theorem mem_of_mem_heardOf {α : Type} {events : List α} {event : α}
    (member : event ∈ retrieval.heardOf events) : event ∈ events := by
  rw [heardOf] at member
  cases left : retrieval.room with
  | none => simpa [left] using member
  | some room => exact List.mem_of_mem_take (by simpa [left] using member)

theorem Admits.map_segment {data : Data} (admits : retrieval.Admits request data) :
    (retrieval.submitted request data).verified.map Verified.segment =
      (retrieval.submitted request data).judged := by
  rw [Submitted.judged, admits.sound, Option.bind_none, Option.toList_none, List.append_nil]

theorem Admits.judged {data : Data} (admits : retrieval.Admits request data) :
    (retrieval.submitted request data).verified.map Verified.segment =
      retrieval.heardOf (retrieval.submitted request data).judged := by
  rw [← admits.map_segment, heardOf_eq_self]
  rw [List.length_map]
  exact admits.heard

/-- A refused submission is reported after the segments that it makes acceptable. -/
theorem judged_refused {data : Data} {error : RetrievalError}
    (reads : (retrieval.submitted request data).error = some error)
    (heard : retrieval.Hears (retrieval.submitted request data).verified.length) :
    (retrieval.submitted request data).verified.map Verified.segment ++
        (if (retrieval.taken request data).listening then error.judged?.toList else []) =
      retrieval.heardOf (retrieval.submitted request data).judged := by
  rw [Submitted.judged, reads, Option.bind_some, heardOf, listening, taken]
  cases left : retrieval.room with
  | none => rfl
  | some room =>
    have enough := heard room left
    rw [Option.elim_some, List.take_append, List.length_map,
      List.take_of_length_le (by rwa [List.length_map])]
    congr 1
    -- the error is one more event
    by_cases full : room = (retrieval.submitted request data).verified.length
    · simp [full]
    · have further : 1 ≤ room - (retrieval.submitted request data).verified.length := by omega
      rw [List.take_of_length_le (Nat.le_trans Option.length_toList_le further)]
      simp [Nat.one_le_iff_ne_zero.mp further]

/-- A step reports what the submission judges, as far as the consumer takes it. -/
theorem Receives.judged {data : Data} {next : Retrieval} {done : Output}
    (receives : retrieval.Receives elapsed request data next done) :
    done.judged = retrieval.heardOf (retrieval.submitted request data).judged := by
  cases receives with
  | @unheard room left short =>
    rw [Output.judged_append, Output.judged_ofVerified, Output.judged_of_events_eq_nil (events_stop _),
      List.append_nil, heardOf, left, Option.elim_some, Submitted.judged,
      List.take_append_of_le_length (by simpa using Nat.le_of_lt short), List.map_take]
  | refused reads heard =>
    rw [Output.judged_append, Output.judged_ofVerified, judged_fail, judged_refused reads heard]
  | cut admits => simp [RetrievalError.judged?, admits.judged]
  | finished absorbs =>
    simp [Output.judged_of_events_eq_nil absorbs.events, absorbs.admits.judged]
  | endless absorbs =>
    simp [Output.judged_of_events_eq_nil absorbs.events, absorbs.admits.judged,
      RetrievalError.judged?]
  | exhausted absorbs =>
    simp [Output.judged_of_events_eq_nil absorbs.events, absorbs.admits.judged]
  | requested absorbs =>
    simp [Output.judged_of_events_eq_nil absorbs.events, absorbs.admits.judged]

/-- The consumer takes the judgement of a held packet if it takes every event up to it. -/
theorem mem_heardOf_judged_iff {log : List Verified} (accepts : retrieval.verifier.Accepts log)
    {data : Data} {n : Nat} (apart : n ≠ request.segment) :
    n ∈ retrieval.heardOf (retrieval.submitted request data).judged ↔
      retrieval.Hears (n + 1 - retrieval.verifier.nextSegment) ∧
        n ∈ (retrieval.submitted request data).judged := by
  rw [heardOf, Hears]
  cases left : retrieval.room with
  | none => simp
  | some room =>
    rw [Option.elim_some, submitted, accepts.mem_take_judged_iff apart]
    refine and_congr_left' ?_
    simp only [Option.some.injEq, forall_eq']
    omega

/-! ## Nothing past a known end is judged -/

theorem Sound.seen_of_step {result : Except FetchFailure Data} {next : Retrieval} {done : Output}
    (sound : Sound size none retrieval output)
    (step : retrieval.Step elapsed request result next done) (live : next.stopped = false)
    {n : Nat} (seen : next.Seen (output ++ done) n) :
    retrieval.window.Has .running request.slot request.segment ∧ n = request.segment ∨
      retrieval.Seen output n := by
  obtain ⟨packet, took⟩ := seen
  exact (sound.took_of_step step live took).imp (fun new => ⟨new.1, new.2.1⟩) fun old => ⟨packet, old⟩

/-- A step judges the packet it handles, or one that was held before. -/
theorem Sound.seen_of_mem_judged {result : Except FetchFailure Data} {next : Retrieval}
    {done : Output} (sound : Sound size none retrieval output)
    (step : retrieval.Step elapsed request result next done) {n : Nat} (judges : n ∈ done.judged) :
    retrieval.window.Has .running request.slot request.segment ∧ n = request.segment ∨
      retrieval.Seen output n := by
  cases step with
  | stale => cases judges
  | failed _ gives =>
    cases gives with
    | fatal => simp [RetrievalError.judged?] at judges
    | ignored => cases judges
    | lost => simp [RetrievalError.judged?] at judges
    | remembered => cases judges
  | received runs receives =>
    rw [receives.judged] at judges
    refine (sound.accepts.held_of_mem_judged (mem_of_mem_heardOf judges)).imp
      (fun new => ⟨runs, new⟩) ?_
    rintro ⟨held, found⟩
    exact ⟨held.data, .inl ⟨held, found, rfl⟩⟩

/-- Once the end is known, a segment past it whose packet was not taken in or was forgotten is never
judged. -/
theorem Onward.not_judged {last n : Nat} (nonempty : 0 < size)
    (run : Run size messages retrieval output) (known : retrieval.window.finalSegment = some last)
    (beyond : last < n) (unseen : ¬ retrieval.Seen output n) {more : List Message}
    {later : Retrieval} {done : Output} (onward : Onward retrieval output more later done) :
    n ∉ done.judged := by
  suffices kept : n ∉ done.judged ∧ (later.stopped = false →
      later.window.finalSegment = some last ∧ ¬ later.Seen (output ++ done) n) from kept.1
  induction onward with
  | refl => exact ⟨nofun, fun _ => ⟨known, by simpa using unseen⟩⟩
  | @handle messages later done onward elapsed message issued ih =>
    obtain ⟨unjudged, kept⟩ := ih
    rcases (run.onward onward).handle_cases nonempty elapsed issued with ⟨stopped, same⟩ |
      ⟨_, _, same⟩ | ⟨live, sound, request, result, _, _, step⟩
    · rw [same, Output.append_nil]
      exact ⟨unjudged, fun live => absurd (stopped.symm.trans live) nofun⟩
    · rw [same]
      exact ⟨by simpa [Output.judged] using unjudged, nofun⟩
    · obtain ⟨known, unseen⟩ := kept live
      -- a request that runs is for a segment within the end
      have other : ¬ (later.window.Has .running request.slot request.segment ∧
          n = request.segment) := by
        rintro ⟨runs, rfl⟩
        have within := sound.running_le last known _ _ runs
        omega
      refine ⟨?_, fun goesOn => ⟨step.finalSegment known, fun seen => ?_⟩⟩
      · rw [Output.judged_append, List.mem_append, not_or]
        exact ⟨unjudged, fun judges => (sound.seen_of_mem_judged step judges).elim other unseen⟩
      · rw [← Output.append_assoc] at seen
        exact (sound.seen_of_step step goesOn seen).elim other unseen
  | leave _ _ ih => exact ih

/-! ## The packet that declares the end -/

/-- A packet that declares the end and lets the retrieval go on leaves nothing past the end but what it
made acceptable. -/
theorem Receives.declared {data : Data} {next : Retrieval} {done : Output} {last : Nat}
    (sound : Sound size none retrieval output)
    (receives : retrieval.Receives elapsed request data next done) (live : next.stopped = false)
    (unknown : retrieval.window.finalSegment = none) (declares : data.declared? = some last) :
    next.window.finalSegment = some last ∧ ∀ n, last < n → next.Seen (output ++ done) n →
      n < (retrieval.verifier.submit request.segment data).2.nextSegment := by
  obtain ⟨state, aborted, absorbs, verifier, final, delivered⟩ := receives.exists_absorbs live
  cases absorbs with
  | silent _ silent =>
    rcases silent with undeclared | known
    · rw [Data.declared?, undeclared] at declares
      cases declares
    · exact absurd unknown known
  | told _ _ reads =>
    rw [Data.declared?, reads] at declares
    cases declares
    refine ⟨final, fun n beyond seen => ?_⟩
    obtain ⟨packet, took⟩ := seen
    rw [verifier, Output.delivered_append, delivered] at took
    rcases Verifier.took_discardBeyond.mp took with ⟨within, _⟩ | ⟨verified, member, number, _⟩
    · omega
    · exact (sound.accepts.submit request.segment data).mem_log_iff.mp ⟨verified, member, number⟩

/-- Take a packet that is the first to declare the end, and a held packet past that end.  The held one
is judged, at once or ever after, exactly if the cascade of the declaring packet reaches it and the
consumer stays until then. -/
theorem judged_beyond_end_iff (nonempty : 0 < size) (run : Run size messages retrieval output)
    (live : retrieval.stopped = false) (issued : request ∈ output.requests)
    (current : retrieval.window.isCurrent request.slot request.fetchId = true) {data : Data}
    {last : Nat} (declares : data.declared? = some last)
    (unknown : retrieval.window.finalSegment = none) {n : Nat} {held : Held}
    (holds : retrieval.verifier.pending.get? n = some held) (beyond : last < n)
    {next : Retrieval} {done : Output}
    (handled : retrieval.handle elapsed (.completed request (.ok data)) = (next, done))
    {more : List Message} {later : Retrieval} {rest : Output}
    (onward : Onward next (output ++ done) more later rest) :
    n ∈ (done ++ rest).judged ↔ retrieval.Hears (n + 1 - retrieval.verifier.nextSegment) ∧
      n ≤ (retrieval.verifier.submit request.segment data).2.nextSegment := by
  have sound := run.sound nonempty live
  have runs := (sound.ledger.isCurrent_iff issued).mp current
  have step := sound.finish_step elapsed issued (.ok data)
  have after := run.handle elapsed (.completed request (.ok data)) fun asked same =>
    Option.some.inj same ▸ issued
  rw [← sound.handle_completed nonempty live elapsed issued, handled] at step
  rw [handled] at after
  have apart : n ≠ request.segment := by
    rintro rfl
    exact sound.fresh _ _ runs ⟨held.data, .inl ⟨held, holds, rfl⟩⟩
  have reached : n ∈ (retrieval.submitted request data).judged ↔
      n ≤ (retrieval.verifier.submit request.segment data).2.nextSegment :=
    sound.accepts.mem_judged_iff holds apart
  cases step with
  | stale old =>
    rw [current] at old
    cases old
  | received _ receives =>
    rw [← reached, ← mem_heardOf_judged_iff sound.accepts apart, Output.judged_append,
      List.mem_append, receives.judged]
    cases stopped : next.stopped with
    | true => simp [(onward.eq_empty_of_stopped stopped).2]
    | false =>
      obtain ⟨_, _, absorbs, _⟩ := receives.exists_absorbs stopped
      rw [← absorbs.admits.judged, absorbs.admits.map_segment]
      -- what this step does not judge is forgotten, and no later step judges it
      refine ⟨fun judges => judges.elim id fun later => ?_, .inl⟩
      obtain ⟨known, left⟩ := receives.declared sound stopped unknown declares
      refine Decidable.not_not.mp fun unjudged => ?_
      refine onward.not_judged nonempty after known beyond (fun seen => unjudged ?_) later
      exact reached.mpr (Nat.le_of_lt (left n beyond seen))

/-! ## A packet held past the end -/

/-- A retrieval with two slots that holds a packet for segment 1, which came first. -/
def holding (early : Held) : Retrieval where
  window :=
    { slots := [some ⟨0, 0, .running⟩, some ⟨2, 2, .running⟩], nextSegment := 3, nextFetchId := 3 }
  verifier := { pending := [(1, early)] }
  fetches := [some ⟨0, 0, 0⟩, some ⟨1, 2, 2⟩]

theorem finish_early {packet : Data} {content : Content}
    (reads : packet.readContent = .ok content) (undeclared : packet.finalSegment? = none) :
    (opened 2 2).finish .zero ⟨1, 1, 1⟩ (.ok packet) =
      (holding ⟨packet, content⟩, { requests := [⟨1, 2, 2⟩] }) := by
  have received : (opened 2 2).finish .zero ⟨1, 1, 1⟩ (.ok packet) =
      receive { opened 2 2 with fetches := [some ⟨0, 0, 0⟩, none] } .zero 1 1 packet := rfl
  rw [received]
  unfold receive
  simp only [opened, Verifier.submit_early Nat.zero_lt_one reads, undeclared]
  rfl

theorem Run.holding {packet : Data} {content : Content}
    (reads : packet.readContent = .ok content) (undeclared : packet.finalSegment? = none) :
    Run 2 [.completed ⟨1, 1, 1⟩ (.ok packet)] (holding ⟨packet, content⟩)
      { requests := [⟨0, 0, 0⟩, ⟨1, 1, 1⟩, ⟨1, 2, 2⟩] } := by
  have run := Run.first (show 1 < 2 by decide) .zero (.ok packet)
  rwa [finish_early reads undeclared] at run

theorem handle_holding {early : Held} (reads : early.data.readContent = .ok early.content)
    (undeclared : early.data.finalSegment? = none) (first : Data) :
    (holding early).handle .zero (.completed ⟨0, 0, 0⟩ (.ok first)) =
      receive { holding early with fetches := [none, some ⟨1, 2, 2⟩] } .zero 0 0 first :=
  ((Run.holding reads undeclared).sound (by decide) rfl).handle_completed (by decide) rfl .zero
    (List.mem_cons_self ..) (.ok first)

/-- Segment 0 comes, and an error ends its cascade. -/
theorem handle_holding_refused {early : Held} (reads : early.data.readContent = .ok early.content)
    (undeclared : early.data.finalSegment? = none) {first : Data} {verified : List Verified}
    {error : RetrievalError} {after : Verifier}
    (submitted : ({ pending := [(1, early)] } : Verifier).submit 0 first =
      ({ verified, error := some error }, after)) :
    ((holding early).handle .zero (.completed ⟨0, 0, 0⟩ (.ok first))).2.events =
      verified.map .segment ++ [.failed error] := by
  rw [handle_holding reads undeclared]
  unfold receive
  simp only [holding, submitted]
  rw [deliver_of_hears _ (hears_of_room_eq_none _ rfl _)]
  rfl

/-- A packet for segment 1 that nobody signed. -/
def forged : Data where
  name := Name.appendSegment ⟨[]⟩ 1
  content := Content.encode ⟨[2], none⟩
  finalBlock := none
  signature := []

theorem readContent_forged : forged.readContent = .ok ⟨[2], none⟩ :=
  Content.decode_encode ⟨by decide, nofun⟩

/-- The only packet of a chain declares that it is the final one. -/
def alone : Data :=
  Chain.sealSegment ⟨[]⟩ .everySegment 0 0 [1] none

theorem declared?_alone : alone.declared? = some 0 := by
  rw [Data.declared?, alone, Chain.finalSegment?_sealSegment]
  rfl

theorem verify_alone : alone.verify = .ok () :=
  Chain.verify_sealSegment ..

theorem readContent_alone : alone.readContent = .ok ⟨[1], none⟩ :=
  Chain.readContent_sealSegment ⟨by decide, nofun⟩

/-- The end is segment 0, and the packet held for segment 1 is refused all the same. -/
theorem held_beyond_end_refused :
    Run 2 [.completed ⟨1, 1, 1⟩ (.ok forged)] (holding ⟨forged, ⟨[2], none⟩⟩)
        { requests := [⟨0, 0, 0⟩, ⟨1, 1, 1⟩, ⟨1, 2, 2⟩] } ∧
      (holding ⟨forged, ⟨[2], none⟩⟩).window.finalSegment = none ∧
      (holding ⟨forged, ⟨[2], none⟩⟩).verifier.pending.get? 1 = some ⟨forged, ⟨[2], none⟩⟩ ∧
      alone.declared? = some 0 ∧
      ((holding ⟨forged, ⟨[2], none⟩⟩).handle .zero (.completed ⟨0, 0, 0⟩ (.ok alone))).2.events =
        [.segment ⟨0, [1], alone⟩, .failed (.integrity 1 (.badSignature .missingSignature))] := by
  have refused : (({} : Verifier).accept 0 ⟨alone, ⟨[1], none⟩⟩).cascade 1 ⟨forged, ⟨[2], none⟩⟩ =
      ({ error := some (.integrity 1 (.badSignature .missingSignature)) },
        ({} : Verifier).accept 0 ⟨alone, ⟨[1], none⟩⟩) := by
    rw [Verifier.cascade]
    rfl
  have submitted := Verifier.submit_zero_released verify_alone readContent_alone refused
  exact ⟨.holding readContent_forged rfl, rfl, rfl, declared?_alone,
    handle_holding_refused readContent_forged rfl submitted⟩

/-- The packet held for segment 1 is never judged where a packet that is held too says that the end is
segment 0. -/
theorem judged_beyond_end_stray : ∃ next done later rest,
    (holding ⟨forged, ⟨[2], none⟩⟩).handle .zero (.completed ⟨1, 2, 2⟩ (.ok stray)) = (next, done) ∧
      Onward next ({ requests := [⟨0, 0, 0⟩, ⟨1, 1, 1⟩, ⟨1, 2, 2⟩] } ++ done)
        [.completed ⟨0, 0, 0⟩ (.ok alone)] later rest ∧
      1 ∉ (done ++ rest).judged := by
  have declares : stray.declared? = some 0 := by decide
  obtain ⟨next, done, handled⟩ : ∃ next done, (holding ⟨forged, ⟨[2], none⟩⟩).handle .zero
      (.completed ⟨1, 2, 2⟩ (.ok stray)) = (next, done) := ⟨_, _, rfl⟩
  have onward : Onward next ({ requests := [⟨0, 0, 0⟩, ⟨1, 1, 1⟩, ⟨1, 2, 2⟩] } ++ done)
      [.completed ⟨0, 0, 0⟩ (.ok alone)] (next.handle .zero (.completed ⟨0, 0, 0⟩ (.ok alone))).1
      ({} ++ (next.handle .zero (.completed ⟨0, 0, 0⟩ (.ok alone))).2) :=
    Onward.refl.handle .zero (.completed ⟨0, 0, 0⟩ (.ok alone)) fun request same => by
      cases same
      simp
  refine ⟨next, done, _, _, handled, onward, fun judges => ?_⟩
  have reached := (judged_beyond_end_iff (by decide) (.holding readContent_forged rfl) rfl
    (by simp) rfl declares rfl rfl Nat.zero_lt_one handled onward).mp judges
  -- the packet that declares the end comes early too, so nothing is accepted
  rw [Verifier.nextSegment_submit_early (by decide)] at reached
  exact absurd reached.2 (by decide)

end Retrieval

end SegmentRetrieval
