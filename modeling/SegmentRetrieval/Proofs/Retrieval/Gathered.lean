import SegmentRetrieval.Proofs.Retrieval.Diagnosis
import SegmentRetrieval.Proofs.Retrieval.Reassembly

/-! # A gathered chain

A retrieval that is served a chain stops only when it has delivered the whole chain.  By then it has
handled the end of a fetch for every segment of the chain.
-/

namespace SegmentRetrieval

namespace Retrieval

variable {size : Nat} {base : Name} {pieces : List Bytes} {messages : List Message}
  {retrieval next : Retrieval} {output done : Output} {elapsed : Duration} {request : Request}
  {result : Except FetchFailure Data}

/-- When a run completes, it has handled the end of a fetch for every segment that it has delivered. -/
theorem Step.handled_of_completed (nonempty : 0 < size) (run : Run size messages retrieval output)
    (live : retrieval.stopped = false)
    (step : retrieval.Step elapsed request result next done) {summary : Summary}
    (completed : .completed summary ∈ done.events) :
    ∀ verified ∈ (output ++ done).delivered,
      ∃ asked ∈ (messages ++ [Message.completed request result]).filterMap Message.request?,
        asked.segment = verified.segment := by
  obtain ⟨data, state, aborted, last, rfl, runs, absorbs, _, _, _, _, _, events⟩ :=
    step.completed completed
  intro verified member
  rw [absorbs.delivered_completed events] at member
  rw [List.filterMap_append]
  -- the packet was taken in just now, or it came with an earlier message
  rcases (run.sound nonempty live).took_absorbed runs absorbs
    (.inr ⟨verified, member, rfl, rfl⟩) with ⟨here, _⟩ | took
  · exact ⟨request, List.mem_append_right _ (List.mem_singleton_self _), here.symm⟩
  · obtain ⟨asked, number, ended⟩ := (run.traced nonempty live).took _ _ took
    exact ⟨asked, List.mem_append_left _ (Message.mem_of_findSome?_result? ended.first), number⟩

section served

variable (nonempty : 0 < size) (fits : Chain.Fits pieces)
  (run : Run size messages retrieval output) (heard : retrieval.listening = true)
  (served : Served (Chain.sealPieces base pieces .everySegment) messages)
include nonempty fits run heard served

/-- What a retrieval that was served a chain has done when it has stopped. -/
theorem Run.gathered (stopped : retrieval.stopped = true) :
    (∃ elapsed, output.events = (Chain.segments base pieces .everySegment).map .segment ++
        [.completed ⟨pieces.length, pieces.flatten.length, elapsed⟩]) ∧
      ∀ n < pieces.length, ∃ request ∈ messages.filterMap Message.request?, request.segment = n := by
  obtain ⟨_, before, history, elapsed, request, result, _, done, begun, live, sound, _, within, step,
    _, rfl, events⟩ := run.exists_completing nonempty fits heard served stopped
  refine ⟨⟨elapsed, events⟩, fun n inside => ?_⟩
  have delivered := Output.delivered_of_events events rfl
  have completed : .completed ⟨pieces.length, pieces.flatten.length, elapsed⟩ ∈ done.events := by
    have last : .completed ⟨pieces.length, pieces.flatten.length, elapsed⟩ ∈
        (history ++ done).events := by
      rw [events]
      exact List.mem_append_right _ (List.mem_singleton_self _)
    rw [Output.events_append, List.mem_append] at last
    exact last.resolve_left (sound.not_mem_events rfl)
  obtain ⟨verified, place⟩ : ∃ verified,
      (Chain.segments base pieces .everySegment)[n]? = some verified :=
    ⟨_, List.getElem?_eq_getElem (by rwa [Chain.length_segments])⟩
  obtain ⟨number, _⟩ := Chain.getElem?_segments_eq_some_iff.mp place
  obtain ⟨asked, handled, same⟩ := step.handled_of_completed nonempty begun live completed verified
    (delivered ▸ List.mem_of_getElem? place)
  exact ⟨asked, (within.sublist.filterMap _).subset handled, same.trans number⟩

end served

end Retrieval

end SegmentRetrieval
