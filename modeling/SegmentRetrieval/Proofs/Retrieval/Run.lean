import SegmentRetrieval.Proofs.Retrieval.Step

/-! # Runs of a retrieval

A run starts with the first requests and goes on with whatever comes: the end of the fetch of any
request issued so far, whether it runs, was canceled, or has ended already, with any packet or any
failure; a cancel; and the loss of the consumer, at once or in the middle of what it is handed later.
Nothing is assumed about order or time.
-/

namespace SegmentRetrieval

/-- The request whose fetch has ended. -/
def Message.request? : Message → Option Request
  | .completed request _ => some request
  | .cancel => none

namespace Retrieval

/-- A retrieval with `size` slots has handled `messages`, is in a state, and has done `output`. -/
inductive Run (size : Nat) : List Message → Retrieval → Output → Prop where
  | start : Run size [] (ofSize size).start.1 (ofSize size).start.2
  | handle {messages : List Message} {retrieval : Retrieval} {output : Output}
      (run : Run size messages retrieval output) (elapsed : Duration) (message : Message)
      (issued : ∀ request ∈ message.request?, request ∈ output.requests) :
      Run size (messages ++ [message]) (retrieval.handle elapsed message).1
        (output ++ (retrieval.handle elapsed message).2)
  | leave {messages : List Message} {retrieval : Retrieval} {output : Output}
      (run : Run size messages retrieval output) (events : Nat) :
      Run size messages (retrieval.leaveAfter events) output

/-! ## The start -/

/-- The retrieval in which the first `n` of `size` slots have requested their segments. -/
def opened (size n : Nat) : Retrieval where
  window :=
    { slots := ((List.range n).map fun i => some ⟨i, i, .running⟩) ++ List.replicate (size - n) none
      nextSegment := n, nextFetchId := n }
  fetches := ((List.range n).map fun i => some ⟨i, i, i⟩) ++ List.replicate (size - n) none

theorem set_opened {α : Type} {size n : Nat} (inside : n < size) (entry : Nat → α) :
    (((List.range n).map fun i => some (entry i)) ++ List.replicate (size - n) none).set n
        (some (entry n)) =
      ((List.range (n + 1)).map fun i => some (entry i)) ++ List.replicate (size - (n + 1)) none := by
  have rest : size - n = size - (n + 1) + 1 := by omega
  rw [rest, List.replicate_succ, List.set_append_right _ _ (by simp)]
  simp [List.range_succ]

theorem fill_opened {size : Nat} (room : Option Nat) (count n : Nat) (whole : n + count = size) :
    fill { opened size n with room } (List.range' n count) =
      ({ opened size size with room },
        { requests := (List.range' n count).map fun i => ⟨i, i, i⟩ }) := by
  induction count generalizing n with
  | zero =>
    subst whole
    rfl
  | succ count ih =>
    have inside : n < size := by omega
    have chosen : (opened size n).window.nextRequest =
        (.issue n, { (opened size n).window with nextSegment := n + 1 }) := rfl
    -- the next segment is requested through the first idle slot, under the same number
    have issued : issue { opened size n with
        window := { (opened size n).window with nextSegment := n + 1 }, room } n n =
        ({ opened size (n + 1) with room }, { requests := [⟨n, n, n⟩] }) := by
      have idle : (opened size n).fetches[n]?.join = none := by
        simp [opened, Nat.sub_pos_of_lt inside]
      simp only [issue, Window.bind, idle]
      simp only [opened, set_opened inside fun i => (⟨i, i, .running⟩ : Slot),
        set_opened inside fun i => (⟨i, i, i⟩ : Request)]
      rfl
    rw [List.range'_succ, fill, chosen]
    simp only [issued, ih (n + 1) (by omega)]
    rfl

/-- The first requests are made whether or not somebody listens. -/
theorem start_fresh (size : Nat) (room : Option Nat) :
    start { ofSize size with room } = ({ opened size size with room },
      { requests := (List.range size).map fun i => ⟨i, i, i⟩ }) := by
  have whole := fill_opened room size 0 (Nat.zero_add size)
  rw [← List.range_eq_range'] at whole
  have fresh : ofSize size = opened size 0 := rfl
  rw [start, fresh, ← whole]
  congr
  exact List.length_replicate

theorem start_ofSize (size : Nat) : (ofSize size).start = (opened size size,
    { requests := (List.range size).map fun i => ⟨i, i, i⟩ }) :=
  start_fresh size none

/-- Only requests that were made end. -/
theorem Run.mem_requests_of_handled {size : Nat} {messages : List Message} {retrieval : Retrieval}
    {output : Output} (run : Run size messages retrieval output) {request : Request}
    (handled : request ∈ messages.filterMap Message.request?) : request ∈ output.requests := by
  induction run with
  | start => cases handled
  | handle _ _ message issued ih =>
    rw [List.filterMap_append, List.mem_append] at handled
    rcases handled with earlier | last
    · exact List.mem_append_left _ (ih earlier)
    · obtain ⟨_, member, same⟩ := List.mem_filterMap.mp last
      rw [List.mem_singleton.mp member] at same
      exact List.mem_append_left _ (issued request same)
  | leave _ _ ih => exact ih handled

/-! ## The step that stopped a run -/

theorem handle_of_stopped {retrieval : Retrieval} (stopped : retrieval.stopped = true)
    (elapsed : Duration) (message : Message) :
    retrieval.handle elapsed message = (retrieval, {}) :=
  if_pos stopped

/-- A run that has stopped was stopped by one message, and nothing happened after it. -/
theorem Run.exists_stopping {size : Nat} {messages : List Message} {retrieval : Retrieval}
    {output : Output} (run : Run size messages retrieval output)
    (stopped : retrieval.stopped = true) :
    ∃ earlier before history elapsed message, Run size earlier before history ∧
      before.stopped = false ∧ (∀ request ∈ message.request?, request ∈ history.requests) ∧
      earlier ++ [message] <+: messages ∧
      (retrieval.listening = true → (before.handle elapsed message).1.listening = true) ∧
      retrieval = { (before.handle elapsed message).1 with room := retrieval.room } ∧
      output = history ++ (before.handle elapsed message).2 := by
  induction run with
  | start =>
    rw [start_ofSize] at stopped
    cases stopped
  | @handle messages before history run elapsed message issued ih =>
    cases already : before.stopped with
    | false =>
      exact ⟨messages, before, history, elapsed, message, run, already, issued,
        List.prefix_refl _, id, rfl, rfl⟩
    | true =>
      -- the message that stopped the run came earlier, and this one did nothing
      rw [handle_of_stopped already, Output.append_nil]
      obtain ⟨earlier, first, past, elapsed, last, run, live, issued, shorter, heard, same, done⟩ :=
        ih already
      exact ⟨earlier, first, past, elapsed, last, run, live, issued,
        shorter.trans (List.prefix_append ..), heard, same, done⟩
  | leave run events ih =>
    obtain ⟨earlier, first, past, elapsed, last, run, live, issued, shorter, heard, same, done⟩ :=
      ih stopped
    refine ⟨earlier, first, past, elapsed, last, run, live, issued, shorter,
      heard ∘ listening_of_leaveAfter _, ?_, done⟩
    rw [same]
    rfl

/-! ## What follows a state -/

/-- From a state in which the run so far has done `history`, a retrieval handles `messages`, gets to
another state, and does `output`. -/
inductive Onward (retrieval : Retrieval) (history : Output) :
    List Message → Retrieval → Output → Prop where
  | refl : Onward retrieval history [] retrieval {}
  | handle {messages : List Message} {later : Retrieval} {output : Output}
      (onward : Onward retrieval history messages later output) (elapsed : Duration)
      (message : Message)
      (issued : ∀ request ∈ message.request?, request ∈ (history ++ output).requests) :
      Onward retrieval history (messages ++ [message]) (later.handle elapsed message).1
        (output ++ (later.handle elapsed message).2)
  | leave {messages : List Message} {later : Retrieval} {output : Output}
      (onward : Onward retrieval history messages later output) (events : Nat) :
      Onward retrieval history messages (later.leaveAfter events) output

theorem Run.onward {size : Nat} {messages : List Message} {retrieval : Retrieval}
    {history : Output} (run : Run size messages retrieval history) {more : List Message}
    {later : Retrieval} {output : Output} (onward : Onward retrieval history more later output) :
    Run size (messages ++ more) later (history ++ output) := by
  induction onward with
  | refl => simpa using run
  | handle _ elapsed message issued ih =>
    rw [← List.append_assoc, ← Output.append_assoc]
    exact ih.handle elapsed message issued
  | leave _ events ih => exact ih.leave events

/-- Nothing follows a state that has stopped. -/
theorem Onward.eq_empty_of_stopped {retrieval : Retrieval} {history : Output}
    {messages : List Message} {later : Retrieval} {output : Output}
    (onward : Onward retrieval history messages later output) (stopped : retrieval.stopped = true) :
    later.stopped = true ∧ output = {} := by
  induction onward with
  | refl => exact ⟨stopped, rfl⟩
  | handle _ elapsed message _ ih =>
    rw [handle_of_stopped ih.1, ih.2]
    exact ⟨ih.1, rfl⟩
  | leave _ _ ih => exact ih

end Retrieval

end SegmentRetrieval
