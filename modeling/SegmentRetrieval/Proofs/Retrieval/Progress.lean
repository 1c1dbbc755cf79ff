import SegmentRetrieval.Proofs.Retrieval.Invariant

/-! # A retrieval never stalls

Between two messages something runs, as long as the retrieval has not stopped.  So the check for a
stall after each message finds none, and no consumer is ever told of one.
-/

namespace SegmentRetrieval

namespace Retrieval

/-- The events with which a step stops name other causes than a stall. -/
theorem Step.not_stalled {retrieval next : Retrieval} {elapsed : Duration} {request : Request}
    {result : Except FetchFailure Data} {output : Output}
    (step : retrieval.Step elapsed request result next output) (n : Nat) :
    .failed (.stalled n) ∉ output.events := by
  cases step with
  | stale => exact List.not_mem_nil
  | failed _ gives => cases gives <;> simp [fail]
  | received _ receives =>
    cases receives with
    | unheard => simp [-List.map_take]
    | refused reads =>
      -- the verifier refuses for reasons of integrity only
      obtain ⟨segment, reason, rfl⟩ := Verifier.exists_integrity_of_error reads
      simp [fail]
    | cut => simp [fail]
    | finished absorbs => simp [complete, absorbs.events]
    | endless absorbs => simp [fail, absorbs.events]
    | exhausted absorbs => simp [absorbs.events]
    | requested absorbs => simp [absorbs.events]

/-- In every state of a run that has not stopped, some request is running; so it is after the end of
any further fetch, where the check for a stall changes nothing; and no event reports a stall. -/
theorem never_stalls {size : Nat} (nonempty : 0 < size) {messages : List Message}
    {retrieval : Retrieval} {output : Output} (run : Run size messages retrieval output) :
    (retrieval.stopped = false → 0 < retrieval.window.running) ∧
      (retrieval.stopped = false → ∀ elapsed, ∀ request ∈ output.requests, ∀ result,
        (retrieval.finish elapsed request result).1.failIfStalled =
          ((retrieval.finish elapsed request result).1, {})) ∧
      ∀ n, .failed (.stalled n) ∉ output.events := by
  refine ⟨fun live => (run.sound nonempty live).running_pos nonempty, ?_, ?_⟩
  · intro live elapsed request issued result
    exact (run.sound nonempty live).failIfStalled_finish nonempty elapsed issued result
  · intro n
    cases stopped : retrieval.stopped with
    | false => exact (run.sound nonempty stopped).not_mem_events rfl
    | true =>
      obtain ⟨_, before, history, _, _, sound, ⟨_, _, rfl⟩ |
        ⟨_, request, result, next, done, _, _, step, _, _, _, rfl⟩⟩ := run.last_step nonempty stopped
      · simpa using sound.not_mem_events rfl
      · -- the step that stopped the run named its own cause
        rw [Output.events_append, List.mem_append]
        exact not_or.mpr ⟨sound.not_mem_events rfl, step.not_stalled n⟩

/-- After a failure that the retrieval survives, the other requests go on. -/
theorem never_stalls_failure : ∃ messages retrieval output, Run 3 messages retrieval output ∧
    messages.length = 1 ∧ retrieval.stopped = false ∧ 0 < retrieval.window.running := by
  have run := (Run.start : Run 3 [] _ _).handle .zero
    (.completed ⟨1, 1, 1⟩ (.error (.nacked ⟨[]⟩ .duplicate))) (by
      rintro request ⟨⟩
      decide)
  exact ⟨_, _, _, run, rfl, rfl, (never_stalls (by decide) run).1 rfl⟩

end Retrieval

end SegmentRetrieval
