import SegmentRetrieval.Proofs.Retrieval.Ending

/-! # What a retrieval requests, and when

The requests of a run are for the segments `0`, `1`, … without gap or repetition, and no two slots run
the same one.  The first end that is declared stays the end.  From then on nothing past it runs or is
requested (`requests_disciplined`), and a slot stays idle only if every segment up to the end was
requested, or if a failure is remembered while the end is unknown (`idle_without_work`).
-/

namespace SegmentRetrieval

namespace Retrieval

variable {size : Nat} {messages : List Message} {retrieval : Retrieval} {output : Output}

theorem Run.not_has_running_of_stopped (nonempty : 0 < size)
    (run : Run size messages retrieval output) (stopped : retrieval.stopped = true) (i n : Nat) :
    ¬ retrieval.window.Has .running i n := by
  obtain ⟨_, before, _, _, live, _, ⟨_, same, _⟩ |
    ⟨_, _, _, next, _, _, _, step, ended, _, same, _⟩⟩ := run.last_step nonempty stopped
  · rw [same]
    exact before.not_has_running_stop i n
  · obtain ⟨state, here⟩ := (step.exists_stop live ended).1
    rw [same, here]
    exact state.not_has_running_stop i n

theorem Run.map_segment_requests (nonempty : 0 < size) (run : Run size messages retrieval output) :
    output.requests.map Request.segment = List.range output.requests.length := by
  have numbered : ∀ {state history}, Sound size none state history →
      history.requests.map Request.segment = List.range history.requests.length := by
    intro state history sound
    rw [sound.ledger.numbers, sound.ledger.length_eq]
  cases stopped : retrieval.stopped with
  | false => exact numbered (run.sound nonempty stopped)
  | true =>
    -- the step that stopped the run requested nothing
    obtain ⟨_, before, _, _, live, sound, ⟨_, _, rfl⟩ |
      ⟨_, _, _, _, _, _, _, step, ended, _, _, rfl⟩⟩ := run.last_step nonempty stopped
    · simpa [stop] using numbered sound
    · simpa [(step.exists_stop live ended).2] using numbered sound

theorem Run.index_eq_of_running (nonempty : 0 < size) (run : Run size messages retrieval output)
    {i j n : Nat} (one : retrieval.window.Has .running i n)
    (other : retrieval.window.Has .running j n) : i = j := by
  cases stopped : retrieval.stopped with
  | false => exact (run.sound nonempty stopped).ledger.index_eq one other
  | true => exact absurd one (run.not_has_running_of_stopped nonempty stopped i n)

theorem Run.running_le_size (nonempty : 0 < size) (run : Run size messages retrieval output) :
    retrieval.window.running ≤ size := by
  cases stopped : retrieval.stopped with
  | false =>
    rw [← (run.sound nonempty stopped).slots]
    exact List.countP_le_length
  | true =>
    have idle : ¬ 0 < retrieval.window.running := by
      rw [Window.running_pos_iff]
      rintro ⟨i, n, runs⟩
      exact run.not_has_running_of_stopped nonempty stopped i n runs
    omega

/-! ## Once the end is known -/

theorem Run.running_le_last (nonempty : 0 < size) (run : Run size messages retrieval output)
    {last : Nat} (known : retrieval.window.finalSegment = some last) {i n : Nat}
    (runs : retrieval.window.Has .running i n) : n ≤ last := by
  cases stopped : retrieval.stopped with
  | false => exact (run.sound nonempty stopped).running_le last known i n runs
  | true => exact absurd runs (run.not_has_running_of_stopped nonempty stopped i n)

theorem Run.finalSegment_handle (nonempty : 0 < size) (run : Run size messages retrieval output)
    (elapsed : Duration) {message : Message}
    (issued : ∀ request ∈ message.request?, request ∈ output.requests) {last : Nat}
    (known : retrieval.window.finalSegment = some last) :
    (retrieval.handle elapsed message).1.window.finalSegment = some last := by
  rcases run.handle_cases nonempty elapsed issued with ⟨_, same⟩ | ⟨_, _, same⟩ |
    ⟨_, _, _, _, _, _, step⟩
  · rwa [same]
  · rwa [same]
  · exact step.finalSegment known

/-- What handling a message requests lies within the end that is known then. -/
theorem Run.segment_le_last (nonempty : 0 < size) (run : Run size messages retrieval output)
    (elapsed : Duration) {message : Message}
    (issued : ∀ request ∈ message.request?, request ∈ output.requests) {last : Nat}
    (known : (retrieval.handle elapsed message).1.window.finalSegment = some last) :
    ∀ asked ∈ (retrieval.handle elapsed message).2.requests, asked.segment ≤ last := by
  rcases run.handle_cases nonempty elapsed issued with ⟨_, same⟩ | ⟨_, _, same⟩ |
    ⟨_, _, _, _, _, _, step⟩
  · simp [same]
  · simp [same, stop]
  · exact step.segment_le known

theorem Onward.within (nonempty : 0 < size) (run : Run size messages retrieval output) {last : Nat}
    (known : retrieval.window.finalSegment = some last) {more : List Message} {later : Retrieval}
    {done : Output} (onward : Onward retrieval output more later done) :
    later.window.finalSegment = some last ∧ ∀ asked ∈ done.requests, asked.segment ≤ last := by
  induction onward with
  | refl => exact ⟨known, nofun⟩
  | handle onward elapsed message issued ih =>
    obtain ⟨known, within⟩ := ih
    have far := run.onward onward
    have kept := far.finalSegment_handle nonempty elapsed issued known
    refine ⟨kept, fun asked member => ?_⟩
    rcases List.mem_append.mp member with earlier | new
    · exact within asked earlier
    · exact far.segment_le_last nonempty elapsed issued kept asked new
  | leave _ _ ih => exact ih

/-! ## The discipline -/

/-- In every state of a run, stopped or not: the requested segments are `0`, `1`, … , no segment runs
in two slots, and no more requests run than there are slots; the message after which the end is known
requests nothing past it; and a known end stays, with nothing past it running or requested ever
after. -/
theorem requests_disciplined (nonempty : 0 < size) (run : Run size messages retrieval output) :
    output.requests.map Request.segment = List.range output.requests.length ∧
      (∀ i j n, retrieval.window.Has .running i n → retrieval.window.Has .running j n → i = j) ∧
      retrieval.window.running ≤ size ∧
      (∀ elapsed message last, (∀ request ∈ message.request?, request ∈ output.requests) →
        (retrieval.handle elapsed message).1.window.finalSegment = some last →
          ∀ asked ∈ (retrieval.handle elapsed message).2.requests, asked.segment ≤ last) ∧
      ∀ last, retrieval.window.finalSegment = some last →
        ∀ more later done, Onward retrieval output more later done →
          later.window.finalSegment = some last ∧
            (∀ i n, later.window.Has .running i n → n ≤ last) ∧
            ∀ asked ∈ done.requests, asked.segment ≤ last := by
  refine ⟨run.map_segment_requests nonempty, ?_, run.running_le_size nonempty, ?_, ?_⟩
  · intro i j n one other
    exact run.index_eq_of_running nonempty one other
  · intro elapsed message last issued known
    exact run.segment_le_last nonempty elapsed issued known
  · intro last known more later done onward
    obtain ⟨kept, within⟩ := onward.within nonempty run known
    exact ⟨kept, fun i n => (run.onward onward).running_le_last nonempty kept, within⟩

/-- The stray packet declares that segment 0 is the final one, so its slot requests nothing, and
segment 0 alone still runs. -/
theorem requests_disciplined_stray : ∃ retrieval output,
    Run 2 [.completed ⟨1, 1, 1⟩ (.ok stray)] retrieval output ∧
      retrieval.window.finalSegment = some 0 ∧
      output.requests.map Request.segment = List.range 2 ∧
      ∀ i n, retrieval.window.Has .running i n → n ≤ 0 := by
  obtain ⟨numbers, _, _, _, within⟩ := requests_disciplined (by decide) Run.received_stray
  obtain ⟨_, running, _⟩ := within 0 rfl _ _ _ .refl
  exact ⟨_, _, Run.received_stray, rfl, numbers, running⟩

/-! ## Idle slots -/

/-- In a run that has not stopped, a slot is idle only if a failure is remembered while the end is
unknown, or if every segment up to the end was requested. -/
theorem idle_without_work (nonempty : 0 < size) (run : Run size messages retrieval output)
    (live : retrieval.stopped = false) {i : Nat} (inside : i < size)
    (idle : ∀ n, ¬ retrieval.window.Has .running i n) :
    (retrieval.window.hasFailure = true ∧ retrieval.window.finalSegment = none) ∨
      ∃ last, retrieval.window.finalSegment = some last ∧ last < retrieval.window.nextSegment ∧
        ∀ n ≤ last, ∃ request ∈ output.requests, request.segment = n := by
  have sound := run.sound nonempty live
  rcases sound.filled i inside nofun with ⟨n, runs⟩ | ⟨unknown, failed⟩ | ⟨last, known, through⟩
  · exact absurd runs (idle n)
  · exact .inl ⟨failed, unknown⟩
  · refine .inr ⟨last, known, through, fun n within => ?_⟩
    have asked : n ∈ output.requests.map Request.segment := by
      rw [sound.ledger.numbers, List.mem_range]
      omega
    exact List.mem_map.mp asked

/-- The slot of the stray packet is idle, and every segment up to the end was requested. -/
theorem idle_without_work_stray : ∃ retrieval output,
    Run 2 [.completed ⟨1, 1, 1⟩ (.ok stray)] retrieval output ∧ retrieval.stopped = false ∧
      (∀ n, ¬ retrieval.window.Has .running 1 n) ∧
      ∃ last, retrieval.window.finalSegment = some last ∧ last < retrieval.window.nextSegment := by
  have idle : ∀ n, ¬ cutShort.window.Has .running 1 n := by
    rintro n ⟨fetchId, place⟩
    cases place
  refine ⟨_, _, Run.received_stray, rfl, idle, ?_⟩
  rcases idle_without_work (by decide) Run.received_stray rfl (show 1 < 2 by decide) idle with
    ⟨failed, _⟩ | ⟨last, known, through, _⟩
  · cases failed
  · exact ⟨last, known, through⟩

end Retrieval

end SegmentRetrieval
