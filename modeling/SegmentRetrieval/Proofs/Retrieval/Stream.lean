import SegmentRetrieval.Proofs.Retrieval.Authenticity
import SegmentRetrieval.Proofs.Retrieval.Completion

/-! # The event stream of a retrieval

What a retrieval reports is an initial run of segments, in order, and behind them at most one terminal
event.  A step that reports a terminal event stops the retrieval, and a retrieval that has stopped
reports nothing, so the terminal event is the last one.  Where it is a summary, the summary counts the
segments that were reported and their payload bytes.
-/

namespace SegmentRetrieval

/-- The events of an output are the segments handed over, numbered from 0, and behind them a terminal
event or none; a summary counts those segments and the bytes of their payloads. -/
structure Output.Stream (output : Output) (terminal : Option Event) : Prop where
  events : output.events = output.delivered.map .segment ++ terminal.toList
  last : ∀ event ∈ terminal, event.isTerminal = true
  numbered : output.delivered.map Verified.segment = List.range output.delivered.length
  counts : ∀ summary, terminal = some (.completed summary) →
    summary.segments = output.delivered.length ∧
      summary.bytes = (output.delivered.map Verified.payload).flatten.length

namespace Retrieval

variable {retrieval : Retrieval} {output : Output}

theorem exists_terminal_stopWith (retrieval : Retrieval) {event : Event}
    (ends : event.isTerminal = true) :
    ∃ terminal : Option Event, (retrieval.stopWith event).2.events = terminal.toList ∧
      ∀ reported ∈ terminal, reported.isTerminal = true := by
  rw [events_stopWith]
  split
  · exact ⟨some event, rfl, fun _ same => Option.some.inj same ▸ ends⟩
  · exact ⟨none, rfl, nofun⟩

theorem exists_terminal_fail (retrieval : Retrieval) (error : RetrievalError) :
    ∃ terminal : Option Event, (retrieval.fail error).2.events = terminal.toList ∧
      ∀ reported ∈ terminal, reported.isTerminal = true :=
  retrieval.exists_terminal_stopWith rfl

theorem exists_terminal_complete (retrieval : Retrieval) (elapsed : Duration) :
    ∃ terminal : Option Event, (retrieval.complete elapsed).2.events = terminal.toList ∧
      ∀ reported ∈ terminal, reported.isTerminal = true :=
  retrieval.exists_terminal_stopWith rfl

/-- A step reports the segments that it hands over, and behind them at most one event, a terminal one. -/
theorem Step.exists_terminal {elapsed : Duration} {request : Request}
    {result : Except FetchFailure Data} {next : Retrieval}
    (step : retrieval.Step elapsed request result next output) :
    ∃ terminal : Option Event, output.events = output.delivered.map .segment ++ terminal.toList ∧
      ∀ event ∈ terminal, event.isTerminal = true := by
  cases step with
  | stale => exact ⟨none, rfl, nofun⟩
  | failed _ gives =>
    cases gives with
    | fatal =>
      obtain ⟨terminal, same, last⟩ := exists_terminal_fail _ _
      exact ⟨terminal, by rw [delivered_fail, same]; rfl, last⟩
    | ignored => exact ⟨none, rfl, nofun⟩
    | lost =>
      obtain ⟨terminal, same, last⟩ := exists_terminal_fail _ _
      exact ⟨terminal, by rw [delivered_fail, same]; rfl, last⟩
    | remembered => exact ⟨none, rfl, nofun⟩
  | @received data _ _ _ receives =>
    cases receives with
    | unheard => exact ⟨none, by simp, nofun⟩
    | @refused error =>
      obtain ⟨terminal, same, last⟩ := (retrieval.taken request data).exists_terminal_fail error
      exact ⟨terminal, by simp [same], last⟩
    | @cut _ _ segment window =>
      obtain ⟨terminal, same, last⟩ :=
        exists_terminal_fail { retrieval.taken request data with window } (.segmentFailed segment)
      exact ⟨terminal, by simp [same], last⟩
    | @finished state _ _ absorbs =>
      obtain ⟨terminal, same, last⟩ := state.exists_terminal_complete elapsed
      exact ⟨terminal, by simp [absorbs.delivered, absorbs.events, same], last⟩
    | @endless state _ absorbs =>
      obtain ⟨terminal, same, last⟩ := state.exists_terminal_fail .finalSegmentNotFound
      exact ⟨terminal, by simp [absorbs.delivered, absorbs.events, same], last⟩
    | exhausted absorbs =>
      exact ⟨none, by simp [absorbs.delivered, absorbs.events], nofun⟩
    | requested absorbs =>
      exact ⟨none, by simp [absorbs.delivered, absorbs.events], nofun⟩

/-- The summary of a step counts all that has been delivered. -/
theorem Sound.counts {size : Nat} {history : Output} (sound : Sound size none retrieval history)
    {elapsed : Duration} {request : Request} {result : Except FetchFailure Data} {next : Retrieval}
    {done : Output} (step : retrieval.Step elapsed request result next done) {summary : Summary}
    (completed : .completed summary ∈ done.events) :
    summary.segments = (history ++ done).delivered.length ∧
      summary.bytes = ((history ++ done).delivered.map Verified.payload).flatten.length := by
  obtain ⟨data, state, aborted, last, rfl, runs, absorbs, _, _, _, rfl, _, events⟩ :=
    step.completed completed
  have taken := sound.absorbed runs absorbs
  rw [absorbs.delivered_completed events]
  exact ⟨taken.accepts.next, by rw [taken.bytes, Verified.foldl_addBytes, Nat.zero_add]⟩

variable {size : Nat} {messages : List Message}

/-- Whatever a run handles, its events are a stream, which ends only when the run has stopped. -/
theorem Run.stream (nonempty : 0 < size) (run : Run size messages retrieval output) :
    ∃ terminal, output.Stream terminal ∧ (retrieval.stopped = false → terminal = none) := by
  have numbered := (run.linked nonempty).map_segment
  have silent : ∀ {state history}, Sound size none state history → history.Stream none :=
    fun sound => ⟨by rw [sound.events]; exact (List.append_nil _).symm, nofun,
      sound.accepts.linked.map_segment, nofun⟩
  cases stopped : retrieval.stopped with
  | false => exact ⟨none, silent (run.sound nonempty stopped), fun _ => rfl⟩
  | true =>
    obtain ⟨_, before, history, _, _, sound, ⟨_, _, rfl⟩ |
      ⟨elapsed, request, result, next, done, _, _, step, _, _, _, rfl⟩⟩ :=
        run.last_step nonempty stopped
    · -- a canceled run stops without an event
      refine ⟨none, ⟨?_, nofun, numbered, nofun⟩, nofun⟩
      simpa using sound.events
    · obtain ⟨terminal, events, last⟩ := step.exists_terminal
      refine ⟨terminal, ⟨?_, last, numbered, ?_⟩, nofun⟩
      · rw [Output.events_append, sound.events, events, Output.delivered_append, List.map_append,
          List.append_assoc]
      · rintro summary rfl
        refine sound.counts step ?_
        rw [events]
        exact List.mem_append_right _ (List.mem_singleton_self _)

end Retrieval

end SegmentRetrieval
