import SegmentRetrieval.Proofs.Retrieval.Fetches

/-! # Late and repeated completions

A fetch may end after its request was canceled or its slot used again, and its end may be told more
than once.  The retrieval drops what it is told of a spent request, so a run in which such completions
are put in anywhere has the same states and does the same (`late_completions_harmless`).  The two runs
may take their messages at different times; only the time that a summary reports depends on that.
-/

namespace SegmentRetrieval

/-- The event without the time that a summary reports. -/
def Event.untimed : Event → Event
  | .segment verified => .segment verified
  | .failed error => .failed error
  | .completed summary => .completed { summary with elapsed := .zero }

/-- The output without the times that summaries report. -/
def Output.untimed (output : Output) : Output :=
  { output with events := output.events.map Event.untimed }

@[simp] theorem Output.untimed_append (first second : Output) :
    (first ++ second).untimed = first.untimed ++ second.untimed :=
  (mk.injEq ..).mpr ⟨List.map_append, rfl, rfl⟩

theorem Output.requests_eq_of_untimed {first second : Output}
    (same : first.untimed = second.untimed) : first.requests = second.requests :=
  (congrArg Output.requests same :)

namespace Retrieval

/-! ## Two times -/

/-- Two steps lead to the same state and do the same, up to the time that a summary reports. -/
def Agree (one other : Retrieval × Output) : Prop :=
  one.1 = other.1 ∧ one.2.untimed = other.2.untimed

section agree

variable (retrieval : Retrieval) (one other : Duration) (slot : Nat)

theorem agree_complete : Agree (retrieval.complete one) (retrieval.complete other) := by
  refine ⟨rfl, ?_⟩
  simp only [complete, stopWith, Output.untimed]
  split <;> rfl

theorem agree_advance : Agree (retrieval.advance one slot) (retrieval.advance other slot) := by
  unfold advance
  split
  · exact retrieval.agree_complete one other
  · exact ⟨rfl, rfl⟩

theorem agree_learnFinal (declared : Option Nat) :
    Agree (retrieval.learnFinal one slot declared) (retrieval.learnFinal other slot declared) := by
  unfold learnFinal
  split
  · split
    · exact ⟨rfl, rfl⟩
    · obtain ⟨state, output⟩ := agree_advance _ one other slot
      exact ⟨state, by simp only [Output.untimed_append, output]⟩
  · exact retrieval.agree_advance one other slot

theorem agree_receive (segment : Nat) (data : Data) :
    Agree (retrieval.receive one slot segment data) (retrieval.receive other slot segment data) := by
  unfold receive
  dsimp only
  split
  · split
    · exact ⟨rfl, rfl⟩
    · obtain ⟨state, output⟩ := agree_learnFinal _ one other slot _
      exact ⟨state, by simp only [Output.untimed_append, output]⟩
  · exact ⟨rfl, rfl⟩

theorem agree_finish (request : Request) (result : Except FetchFailure Data) :
    Agree (retrieval.finish one request result) (retrieval.finish other request result) := by
  unfold finish
  split
  · cases result with
    | ok data => exact agree_receive _ one other request.slot request.segment data
    | error => exact ⟨rfl, rfl⟩
  · exact ⟨rfl, rfl⟩

theorem agree_handle (message : Message) :
    Agree (retrieval.handle one message) (retrieval.handle other message) := by
  unfold handle
  split
  · exact ⟨rfl, rfl⟩
  · cases message with
    | cancel => exact ⟨rfl, rfl⟩
    | completed request result =>
      obtain ⟨state, output⟩ := retrieval.agree_finish one other request result
      dsimp only
      rw [state]
      exact ⟨rfl, by simp only [Output.untimed_append, output]⟩

end agree

/-! ## Late completions -/

/-- Two runs side by side: both handle the same messages, each in its own time, and the second one also
hears of requests that are spent by then. -/
inductive Padded (size : Nat) : List Message → Retrieval → Output →
    List Message → Retrieval → Output → Prop where
  | start : Padded size [] (ofSize size).start.1 (ofSize size).start.2
      [] (ofSize size).start.1 (ofSize size).start.2
  | handle {messages more : List Message} {retrieval later : Retrieval} {output done : Output}
      (padded : Padded size messages retrieval output more later done) (one other : Duration)
      (message : Message) (issued : ∀ request ∈ message.request?, request ∈ output.requests) :
      Padded size
        (messages ++ [message]) (retrieval.handle one message).1
        (output ++ (retrieval.handle one message).2)
        (more ++ [message]) (later.handle other message).1 (done ++ (later.handle other message).2)
  | leave {messages more : List Message} {retrieval later : Retrieval} {output done : Output}
      (padded : Padded size messages retrieval output more later done) (events : Nat) :
      Padded size messages (retrieval.leaveAfter events) output
        more (later.leaveAfter events) done
  | late {messages more : List Message} {retrieval later : Retrieval} {output done : Output}
      (padded : Padded size messages retrieval output more later done) (elapsed : Duration)
      {request : Request} (result : Except FetchFailure Data) (issued : request ∈ done.requests)
      (spent : Spent more done request) :
      Padded size messages retrieval output
        (more ++ [.completed request result]) (later.handle elapsed (.completed request result)).1
        (done ++ (later.handle elapsed (.completed request result)).2)

variable {size : Nat} {messages more : List Message} {retrieval later : Retrieval}
  {output done : Output}

theorem Padded.same (nonempty : 0 < size)
    (padded : Padded size messages retrieval output more later done) :
    Run size messages retrieval output ∧ Run size more later done ∧
      later = retrieval ∧ done.untimed = output.untimed := by
  induction padded with
  | start => exact ⟨.start, .start, rfl, rfl⟩
  | @handle _ _ retrieval _ output done _ one other message issued ih =>
    obtain ⟨run, padding, rfl, same⟩ := ih
    have asked : ∀ request ∈ message.request?, request ∈ done.requests :=
      fun request here => Output.requests_eq_of_untimed same ▸ issued request here
    -- the two runs differ in the time at which the message comes, and in nothing else
    obtain ⟨state, step⟩ := agree_handle _ other one message
    exact ⟨run.handle one message issued, padding.handle other message asked, state,
      by rw [Output.untimed_append, Output.untimed_append, same, step]⟩
  | leave _ events ih =>
    obtain ⟨run, padding, rfl, same⟩ := ih
    exact ⟨run.leave events, padding.leave events, rfl, same⟩
  | late _ elapsed result issued spent ih =>
    obtain ⟨run, padding, same, output⟩ := ih
    have further := padding.handle elapsed (.completed _ result) fun _ here =>
      Option.some.inj here ▸ issued
    have nothing := padding.handle_of_spent nonempty issued spent elapsed result
    simp only [nothing, Output.append_nil] at further ⊢
    exact ⟨run, further, same, output⟩

theorem Onward.not_mem_aborted (nonempty : 0 < size) (run : Run size messages retrieval output)
    {request : Request} (issued : request ∈ output.requests) (spent : Spent messages output request)
    (onward : Onward retrieval output more later done) : request ∉ done.aborted := by
  induction onward with
  | refl => nofun
  | handle onward elapsed message known ih =>
    have far := run.onward onward
    intro aborted
    rcases List.mem_append.mp aborted with earlier | new
    · exact ih earlier
    · have runs := ((far.mem_aborted_handle_iff nonempty elapsed known).mp new).1
      exact (far.spent_iff nonempty (List.mem_append_left _ issued)).mp (spent.append ..) runs
  | leave _ _ ih => exact ih

/-- Completions of spent requests, put into a run anywhere, change neither its states nor what it does,
up to the times that summaries report.  And the completion of a request that has an effect finds it
neither handled nor aborted nor replaced; from then on the request is never aborted, and no other
completion of it has an effect. -/
theorem late_completions_harmless (nonempty : 0 < size) :
    (∀ {messages more : List Message} {retrieval later : Retrieval} {output done : Output},
      Padded size messages retrieval output more later done →
        Run size more later done ∧ later = retrieval ∧ done.untimed = output.untimed) ∧
    ∀ {messages : List Message} {retrieval : Retrieval} {output : Output},
      Run size messages retrieval output → ∀ request ∈ output.requests, ∀ elapsed result,
        retrieval.handle elapsed (.completed request result) ≠ (retrieval, {}) →
          ¬ Spent messages output request ∧
          request ∉ (retrieval.handle elapsed (.completed request result)).2.aborted ∧
          ∀ more later done,
            Onward (retrieval.handle elapsed (.completed request result)).1
              (output ++ (retrieval.handle elapsed (.completed request result)).2) more later done →
            request ∉ done.aborted ∧
              ∀ elapsed result, later.handle elapsed (.completed request result) = (later, {}) := by
  refine ⟨fun padded => (padded.same nonempty).2, ?_⟩
  intro messages retrieval output run request issued elapsed result changes
  have known : ∀ other ∈ (Message.completed request result).request?, other ∈ output.requests :=
    fun _ here => Option.some.inj here ▸ issued
  refine ⟨fun spent => changes (run.handle_of_spent nonempty issued spent elapsed result), ?_, ?_⟩
  · intro aborted
    exact ((run.mem_aborted_handle_iff nonempty elapsed known).mp aborted).2.1 rfl
  · intro more later done onward
    have next := run.handle elapsed (.completed request result) known
    have asked := List.mem_append_left
      (retrieval.handle elapsed (.completed request result)).2.requests issued
    have spent : Spent (messages ++ [.completed request result])
        (output ++ (retrieval.handle elapsed (.completed request result)).2) request := by
      refine .inl ?_
      rw [List.filterMap_append]
      exact List.mem_append_right _ (List.mem_singleton_self _)
    refine ⟨onward.not_mem_aborted nonempty next asked spent, fun elapsed result => ?_⟩
    exact (next.onward onward).handle_of_spent nonempty (List.mem_append_left _ asked)
      (spent.append ..) elapsed result

/-- The failure of segment 1 cancels the request for segment 2, whose packet then comes in vain. -/
theorem late_completions_harmless_aborted : ∃ failure retrieval later output done,
    Padded 3 [.completed ⟨1, 1, 1⟩ (.error failure)] retrieval output
      [.completed ⟨1, 1, 1⟩ (.error failure), .completed ⟨2, 2, 2⟩ (.ok stray)] later done ∧
      output.aborted = [⟨2, 2, 2⟩] ∧ retrieval.stopped = false ∧
      later = retrieval ∧ done.untimed = output.untimed := by
  have failed := Padded.start.handle .zero .zero
    (.completed ⟨1, 1, 1⟩ (.error (.timeoutRetriesExhausted ⟨[]⟩ 0))) (show ∀ request ∈
      some (⟨1, 1, 1⟩ : Request), request ∈ (ofSize 3).start.2.requests by decide)
  have spent : Spent [.completed ⟨1, 1, 1⟩ (.error (.timeoutRetriesExhausted ⟨[]⟩ 0))]
      ((ofSize 3).start.2 ++ ((ofSize 3).start.1.handle .zero
        (.completed ⟨1, 1, 1⟩ (.error (.timeoutRetriesExhausted ⟨[]⟩ 0)))).2) ⟨2, 2, 2⟩ :=
    .inr (.inl (by decide))
  have padded := failed.late .zero (.ok stray) (by decide) spent
  obtain ⟨_, state, same⟩ := (late_completions_harmless (by decide)).1 padded
  exact ⟨_, _, _, _, _, padded, by decide, by decide, state, same⟩

end Retrieval

end SegmentRetrieval
