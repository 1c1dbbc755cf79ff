import SegmentRetrieval.Proofs.Retrieval.Fetches

/-! # Live fetches and running slots

A fetch is live from the step that begins it until its end is handled or it is aborted.  The table of
fetches is updated apart from the window: when a request is made, when one has ended, when some are
canceled, and when everything stops.  Between two messages the two agree all the same: a slot runs a
request exactly if the fetch of that request is live (`fetches_agree`).  So no canceled request is
fetched any longer, and no slot waits for a fetch that was aborted.
-/

namespace SegmentRetrieval

namespace Retrieval

/-- The fetch of a request was begun; it was not aborted, and its end was not handled. -/
structure Live (messages : List Message) (output : Output) (request : Request) : Prop where
  begun : request ∈ output.requests
  unaborted : request ∉ output.aborted
  unhandled : request ∉ messages.filterMap Message.request?

variable {size : Nat} {messages : List Message} {retrieval : Retrieval} {output : Output}

theorem Run.live_iff_runs (nonempty : 0 < size) (run : Run size messages retrieval output)
    {request : Request} : Live messages output request ↔ retrieval.window.Runs request := by
  constructor
  · intro live
    apply Classical.byContradiction
    intro idle
    rcases run.handled_or_aborted nonempty live.begun idle with handled | aborted
    · exact live.unhandled handled
    · exact live.unaborted aborted
  · intro runs
    have begun := run.mem_requests_of_runs nonempty runs
    have unspent : ¬ Spent messages output request :=
      fun spent => run.not_runs_of_spent nonempty begun spent runs
    exact ⟨begun, fun aborted => unspent (.inr (.inl aborted)),
      fun handled => unspent (.inl handled)⟩

/-- In every state of a run, the fetch in the table under a slot is the live fetch of that slot, and a
slot runs a segment under a fetch number exactly if that fetch is live.  In a run that has stopped, for
whatever reason, no fetch is live and the table is empty. -/
theorem fetches_agree (nonempty : 0 < size) (run : Run size messages retrieval output) :
    (∀ index request, retrieval.fetches[index]?.join = some request ↔
      request.slot = index ∧ Live messages output request) ∧
    (∀ index segment fetchId,
      retrieval.window.slot? index = some ⟨segment, fetchId, .running⟩ ↔
        Live messages output ⟨index, fetchId, segment⟩) ∧
    (retrieval.stopped = true →
      (∀ request, ¬ Live messages output request) ∧ ∀ fetch ∈ retrieval.fetches, fetch = none) := by
  have owns : ∀ index request, retrieval.fetches[index]?.join = some request ↔
      request.slot = index ∧ Live messages output request := by
    intro index request
    rw [run.live_iff_runs nonempty]
    exact run.fetched nonempty index request
  have runs : ∀ index segment fetchId,
      retrieval.window.slot? index = some ⟨segment, fetchId, .running⟩ ↔
        Live messages output ⟨index, fetchId, segment⟩ := by
    intro index segment fetchId
    rw [run.live_iff_runs nonempty]
    rfl
  refine ⟨owns, runs, fun stopped => ?_⟩
  have none : ∀ request, ¬ Live messages output request := fun request live =>
    run.not_runs_of_stopped nonempty stopped request ((run.live_iff_runs nonempty).mp live)
  refine ⟨none, fun fetch member => Option.eq_none_iff_forall_ne_some.mpr fun request here => ?_⟩
  obtain ⟨index, place⟩ := List.mem_iff_getElem?.mp member
  exact none request ((owns index request).mp (Option.join_eq_some_iff.mpr (here ▸ place))).2

/-- The failure of segment 1 cancels the request for segment 2, whose fetch is live no more, while
segment 0 is still fetched. -/
theorem fetches_agree_failure : ∃ failure retrieval output,
    Run 3 [.completed ⟨1, 1, 1⟩ (.error failure)] retrieval output ∧ retrieval.stopped = false ∧
      Live [.completed ⟨1, 1, 1⟩ (.error failure)] output ⟨0, 0, 0⟩ ∧
      ¬ Live [.completed ⟨1, 1, 1⟩ (.error failure)] output ⟨1, 1, 1⟩ ∧
      ¬ Live [.completed ⟨1, 1, 1⟩ (.error failure)] output ⟨2, 2, 2⟩ := by
  have run := (Run.start : Run 3 [] _ _).handle .zero
    (.completed ⟨1, 1, 1⟩ (.error (.timeoutRetriesExhausted ⟨[]⟩ 0))) (show ∀ request ∈
      some (⟨1, 1, 1⟩ : Request), request ∈ (ofSize 3).start.2.requests by decide)
  obtain ⟨owns, runs, _⟩ := fetches_agree (by decide) run
  refine ⟨_, _, _, run, by decide, (runs 0 0 0).mp (by decide), fun live => ?_, fun live => ?_⟩
  · exact absurd ((owns 1 ⟨1, 1, 1⟩).mpr ⟨rfl, live⟩) (by decide)
  · exact absurd ((runs 2 2 2).mpr live) (by decide)

end Retrieval

end SegmentRetrieval
