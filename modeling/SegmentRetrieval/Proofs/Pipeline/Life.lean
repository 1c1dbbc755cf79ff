import SegmentRetrieval.Pipeline
import SegmentRetrieval.Proofs.Retrieval.Stream

/-! # The life of a pipeline

A pipeline is started and canceled from outside, as often and whenever its owner likes, while its
fetches end.  The calls of a life stand in the order in which the pipeline handles them.  A pipeline
that is not idle cannot be started, so what it does in its life is what one run of its retrieval does,
or nothing.
-/

namespace SegmentRetrieval

namespace Pipeline

/-- What a pipeline is told. -/
inductive Call where
  | start
  | cancel
  | dropEvents (taken : Nat)
  | complete (elapsed : Duration) (request : Request) (result : Except FetchFailure Data)

/-- The request whose fetch has ended. -/
def Call.request? : Call → Option Request
  | .complete _ request _ => some request
  | .start | .cancel | .dropEvents _ => none

/-- What a pipeline does when it is told something. -/
def perform (pipeline : Pipeline) : Call → Pipeline × Output
  | .start => pipeline.start
  | .cancel => pipeline.cancel
  | .dropEvents taken => (pipeline.dropEvents taken, {})
  | .complete elapsed request result => pipeline.complete elapsed request result

/-- A pipeline that has done `history` performs `calls`, gets to another state, and does `output`.
Only fetches of requests that it has made end. -/
inductive Life (pipeline : Pipeline) (history : Output) : List Call → Pipeline → Output → Prop where
  | refl : Life pipeline history [] pipeline {}
  | call {calls : List Call} {later : Pipeline} {output : Output}
      (life : Life pipeline history calls later output) (call : Call)
      (issued : ∀ request ∈ call.request?, request ∈ (history ++ output).requests) :
      Life pipeline history (calls ++ [call]) (later.perform call).1
        (output ++ (later.perform call).2)

variable {pipeline : Pipeline} {calls : List Call} {later : Pipeline} {history output : Output}

/-! ## Single calls -/

theorem start_of_ne_idle (begun : pipeline.stage ≠ .idle) : pipeline.start = (pipeline, {}) := by
  unfold start
  split
  next idle => exact absurd idle begun
  next => rfl

theorem complete_of_running (running : pipeline.stage = .running) (elapsed : Duration)
    (request : Request) (result : Except FetchFailure Data) :
    pipeline.complete elapsed request result =
      ({ pipeline with
          retrieval := (pipeline.retrieval.handle elapsed (.completed request result)).1 },
        (pipeline.retrieval.handle elapsed (.completed request result)).2) := by
  simp only [complete, running]

theorem complete_of_ne_running (resting : pipeline.stage ≠ .running) (elapsed : Duration)
    (request : Request) (result : Except FetchFailure Data) :
    pipeline.complete elapsed request result = (pipeline, {}) := by
  unfold complete
  split
  next running => exact absurd running resting
  next => rfl

theorem cancel_of_running (running : pipeline.stage = .running) :
    pipeline.cancel =
      ({ pipeline with
          stage := .stopped, retrieval := (pipeline.retrieval.handle .zero .cancel).1 },
        (pipeline.retrieval.handle .zero .cancel).2) := by
  simp only [cancel, running]

theorem cancel_of_ne_running (resting : pipeline.stage ≠ .running) :
    pipeline.cancel = ({ pipeline with stage := .stopped }, {}) := by
  unfold cancel
  split
  next running => exact absurd running resting
  next => rfl

/-! ## After the end -/

/-- The pipeline is not idle, and either was canceled or has a retrieval that has stopped. -/
structure Over (pipeline : Pipeline) : Prop where
  begun : pipeline.stage ≠ .idle
  ended : pipeline.stage = .running → pipeline.retrieval.stopped = true

theorem Over.of_stopped (stopped : pipeline.stage = .stopped) : pipeline.Over :=
  ⟨by simp [stopped], by simp [stopped]⟩

theorem Over.perform (past : pipeline.Over) (call : Call) :
    (pipeline.perform call).1.Over ∧ (pipeline.perform call).2 = {} := by
  cases call with
  | start =>
    rw [Pipeline.perform, start_of_ne_idle past.begun]
    exact ⟨past, rfl⟩
  | dropEvents taken => exact ⟨⟨past.begun, past.ended⟩, rfl⟩
  | cancel =>
    rw [Pipeline.perform]
    by_cases running : pipeline.stage = .running
    · rw [cancel_of_running running, Retrieval.handle_of_stopped (past.ended running)]
      exact ⟨⟨nofun, nofun⟩, rfl⟩
    · rw [cancel_of_ne_running running]
      exact ⟨⟨nofun, nofun⟩, rfl⟩
  | complete elapsed request result =>
    rw [Pipeline.perform]
    by_cases running : pipeline.stage = .running
    · rw [complete_of_running running, Retrieval.handle_of_stopped (past.ended running)]
      exact ⟨past, rfl⟩
    · rw [complete_of_ne_running running]
      exact ⟨past, rfl⟩

/-- Nothing follows the end of a pipeline. -/
theorem Over.life (past : pipeline.Over) (life : Life pipeline history calls later output) :
    later.Over ∧ output = {} := by
  induction life with
  | refl => exact ⟨past, rfl⟩
  | call _ call _ ih =>
    obtain ⟨still, nothing⟩ := ih.1.perform call
    rw [ih.2, nothing]
    exact ⟨still, rfl⟩

/-! ## The stages -/

/-- How far a pipeline with `size` slots has come: it was not told to start or stop yet, its retrieval
runs or has ended by itself, or it was canceled before that, after that or in between. -/
inductive Stands (size : Nat) (calls : List Call) : Pipeline → Output → Prop where
  | idle {pipeline : Pipeline} {room : Option Nat} (stage : pipeline.stage = .idle)
      (fresh : pipeline.retrieval = { Retrieval.ofSize size with room })
      (unstarted : .start ∉ calls) (uncanceled : .cancel ∉ calls) : Stands size calls pipeline {}
  | running {pipeline : Pipeline} {messages : List Message} {output : Output}
      (stage : pipeline.stage = .running)
      (run : Retrieval.Run size messages pipeline.retrieval output)
      (started : .start ∈ calls) (uncanceled : .cancel ∉ calls) : Stands size calls pipeline output
  | stopped {pipeline : Pipeline} {output : Output} (stage : pipeline.stage = .stopped)
      (whole : output = {} ∨
        .start ∈ calls ∧ ∃ messages, Retrieval.Run size messages pipeline.retrieval output)
      (canceled : .cancel ∈ calls) : Stands size calls pipeline output

section stands

variable {size : Nat}

/-- A retrieval may lose its consumer before it starts. -/
theorem run_start (size : Nat) (room : Option Nat) :
    Retrieval.Run size [] (Retrieval.start { Retrieval.ofSize size with room }).1
      (Retrieval.start { Retrieval.ofSize size with room }).2 := by
  have run := @Retrieval.Run.start size
  rw [Retrieval.start_ofSize] at run
  rw [Retrieval.start_fresh]
  cases room with
  | none => exact run
  | some events => exact run.leave events

/-- Each call leads from one stage to another. -/
theorem Stands.perform (stands : Stands size calls pipeline output) (call : Call)
    (issued : ∀ request ∈ call.request?, request ∈ output.requests) :
    Stands size (calls ++ [call]) (pipeline.perform call).1
      (output ++ (pipeline.perform call).2) := by
  have kept : ∀ {earlier : Call}, earlier ∈ calls → earlier ∈ calls ++ [call] :=
    List.mem_append_left _
  have last : call ∈ calls ++ [call] := List.mem_append_right _ (List.mem_singleton_self _)
  cases stands with
  | @idle room stage fresh unstarted uncanceled =>
    cases call with
    | start =>
      have started : pipeline.start = ({ pipeline with
          stage := .running, retrieval := pipeline.retrieval.start.1 }, pipeline.retrieval.start.2) := by
        simp only [start, stage]
      rw [Pipeline.perform, started, fresh]
      exact .running rfl (run_start size room) last (by simpa using uncanceled)
    | cancel =>
      rw [Pipeline.perform, cancel_of_ne_running (by simp [stage])]
      exact .stopped rfl (.inl rfl) last
    | dropEvents taken =>
      have left : (pipeline.dropEvents taken).retrieval =
          { Retrieval.ofSize size with room := some (room.elim taken (min taken)) } :=
        congrArg (Retrieval.leaveAfter · taken) fresh
      refine .idle stage left ?_ ?_
      · simpa using unstarted
      · simpa using uncanceled
    | complete elapsed request result => cases issued request rfl
  | running stage run started uncanceled =>
    cases call with
    | start =>
      rw [Pipeline.perform, start_of_ne_idle (by simp [stage]), Output.append_nil]
      exact .running stage run last (by simpa using uncanceled)
    | cancel =>
      rw [Pipeline.perform, cancel_of_running stage]
      exact .stopped rfl (.inr ⟨kept started, _, run.handle .zero .cancel nofun⟩) last
    | dropEvents taken =>
      rw [Pipeline.perform, Output.append_nil]
      exact .running stage (run.leave taken) (kept started) (by simpa using uncanceled)
    | complete elapsed request result =>
      rw [Pipeline.perform, complete_of_running stage]
      exact .running stage (run.handle elapsed (.completed request result) issued) (kept started)
        (by simpa using uncanceled)
  | stopped stage whole canceled =>
    have later := whole.imp_right fun begun => And.intro (kept begun.1) begun.2
    rw [((Over.of_stopped stage).perform call).2, Output.append_nil]
    cases call with
    | start =>
      rw [Pipeline.perform, start_of_ne_idle (by simp [stage])]
      exact .stopped stage later (kept canceled)
    | cancel =>
      rw [Pipeline.perform, cancel_of_ne_running (by simp [stage])]
      exact .stopped rfl later last
    | dropEvents taken =>
      refine .stopped stage (later.imp_right ?_) (kept canceled)
      rintro ⟨started, messages, run⟩
      exact ⟨started, messages, run.leave taken⟩
    | complete elapsed request result =>
      rw [Pipeline.perform, complete_of_ne_running (by simp [stage])]
      exact .stopped stage later (kept canceled)

theorem eq_of_create {base : Name} {options : Options}
    (created : create base options = .ok pipeline) :
    pipeline = { base, options, retrieval := .ofSize options.windowSize } := by
  unfold create at created
  split at created
  next => cases created
  next =>
    cases created
    rfl

theorem base_of_create {base : Name} {options : Options}
    (created : create base options = .ok pipeline) : pipeline.base = base := by
  rw [eq_of_create created]

theorem options_of_create {base : Name} {options : Options}
    (created : create base options = .ok pipeline) : pipeline.options = options := by
  rw [eq_of_create created]

theorem Life.stands {options : Options} {base : Name}
    (created : create base options = .ok pipeline) (life : Life pipeline {} calls later output) :
    Stands options.windowSize calls later output := by
  induction life with
  | refl =>
    rw [eq_of_create created]
    exact .idle rfl rfl nofun nofun
  | call _ call issued ih => exact ih.perform call issued

/-- An accepted pipeline has a slot, and no more than the largest window. -/
theorem windowSize_of_create {options : Options} {base : Name}
    (created : create base options = .ok pipeline) :
    0 < options.windowSize ∧ options.windowSize ≤ maxWindowSize := by
  unfold create at created
  split at created
  next => cases created
  next valid =>
    unfold Options.validate at valid
    split at valid
    next => cases valid
    next within => omega

theorem Stands.whole (stands : Stands size calls pipeline output) :
    output = {} ∨ .start ∈ calls ∧
      ∃ messages, Retrieval.Run size messages pipeline.retrieval output := by
  cases stands with
  | idle => exact .inl rfl
  | running _ run started => exact .inr ⟨started, _, run⟩
  | stopped _ whole => exact whole

theorem Stands.idle_iff (stands : Stands size calls pipeline output) :
    pipeline.stage = .idle ↔ .start ∉ calls ∧ .cancel ∉ calls := by
  cases stands with
  | idle stage _ unstarted uncanceled => exact iff_of_true stage ⟨unstarted, uncanceled⟩
  | running stage _ started => exact iff_of_false (by simp [stage]) fun fresh => fresh.1 started
  | stopped stage _ canceled => exact iff_of_false (by simp [stage]) fun fresh => fresh.2 canceled

theorem Stands.stopped_of_canceled (stands : Stands size calls pipeline output)
    (canceled : .cancel ∈ calls) : pipeline.stage = .stopped := by
  cases stands with
  | idle _ _ _ uncanceled => exact absurd canceled uncanceled
  | running _ _ _ uncanceled => exact absurd canceled uncanceled
  | stopped stage => exact stage

theorem Stands.ne_running_of_unstarted (stands : Stands size calls pipeline output)
    (unstarted : .start ∉ calls) : pipeline.stage ≠ .running := by
  cases stands with
  | idle stage => simp [stage]
  | running _ _ started => exact absurd started unstarted
  | stopped stage => simp [stage]

/-- What a pipeline reports is a stream, and once it has ended the pipeline is over. -/
theorem Stands.stream (nonempty : 0 < size) (stands : Stands size calls pipeline output) :
    ∃ terminal, output.Stream terminal ∧ (terminal ≠ none → pipeline.Over) := by
  rcases stands.whole with rfl | ⟨started, messages, run⟩
  · exact ⟨none, ⟨rfl, nofun, rfl, nofun⟩, fun some => absurd rfl some⟩
  · obtain ⟨terminal, stream, live⟩ := run.stream nonempty
    refine ⟨terminal, stream, fun some => ⟨fun idle => ?_, fun _ => ?_⟩⟩
    · exact (stands.idle_iff.mp idle).1 started
    · rw [← Bool.not_eq_false]
      exact fun goesOn => some (live goesOn)

end stands

/-! ## Cancels -/

theorem silent_cancel (pipeline : Pipeline) :
    pipeline.cancel.2.events = [] ∧ pipeline.cancel.2.requests = [] := by
  by_cases running : pipeline.stage = .running
  · rw [cancel_of_running running, Retrieval.handle]
    split <;> exact ⟨rfl, rfl⟩
  · rw [cancel_of_ne_running running]
    exact ⟨rfl, rfl⟩

theorem stage_cancel (pipeline : Pipeline) : pipeline.cancel.1.stage = .stopped := by
  by_cases running : pipeline.stage = .running
  · rw [cancel_of_running running]
  · rw [cancel_of_ne_running running]

theorem cancel_of_stopped (stopped : pipeline.stage = .stopped) :
    pipeline.cancel = (pipeline, {}) := by
  rw [cancel_of_ne_running (by simp [stopped]), ← stopped]

/-- Shape and life.  However a pipeline is started and canceled while its fetches end, what it does is
what one run of its retrieval does, or nothing, and its events are a stream: segments numbered from 0,
and behind them at most one terminal event, after which it does nothing.  A start has an effect only
before every other start and every cancel.  A cancel reports and requests nothing, and nothing happens
after it; so nothing ever happens if it comes before every start, and a second one changes nothing. -/
theorem lifecycle {base : Name} {options : Options} (created : create base options = .ok pipeline)
    (life : Life pipeline {} calls later output) :
    (∃ terminal, output.Stream terminal ∧ (terminal ≠ none →
      ∀ more last done, Life later output more last done → done = {})) ∧
    (output = {} ∨ .start ∈ calls ∧
      ∃ messages, Retrieval.Run options.windowSize messages later.retrieval output) ∧
    (later.stage = .idle ↔ .start ∉ calls ∧ .cancel ∉ calls) ∧
    (.start ∈ calls ∨ .cancel ∈ calls → later.start = (later, {})) ∧
    later.cancel.2.events = [] ∧ later.cancel.2.requests = [] ∧
    (∀ more last done, Life later.cancel.1 (output ++ later.cancel.2) more last done → done = {}) ∧
    (.start ∉ calls → output ++ later.cancel.2 = {}) ∧
    (.cancel ∈ calls → later.cancel = (later, {})) := by
  have nonempty := (windowSize_of_create created).1
  have stands := life.stands created
  refine ⟨?_, stands.whole, stands.idle_iff, ?_, later.silent_cancel.1, later.silent_cancel.2, ?_,
    ?_, fun canceled => cancel_of_stopped (stands.stopped_of_canceled canceled)⟩
  · obtain ⟨terminal, stream, past⟩ := stands.stream nonempty
    exact ⟨terminal, stream, fun some _ _ _ further => ((past some).life further).2⟩
  · intro begun
    refine start_of_ne_idle fun idle => ?_
    obtain ⟨unstarted, uncanceled⟩ := stands.idle_iff.mp idle
    exact begun.elim unstarted uncanceled
  · exact fun _ _ _ further => ((Over.of_stopped later.stage_cancel).life further).2
  · intro unstarted
    rw [stands.whole.resolve_right fun begun => unstarted begun.1,
      cancel_of_ne_running (stands.ne_running_of_unstarted unstarted)]
    rfl

/-- A pipeline whose only fetch fails reports that, and a cancel comes too late to matter. -/
theorem lifecycle_failed : ∃ pipeline later output,
    create ⟨[]⟩ {} = .ok pipeline ∧
      Life pipeline {} [.start, .complete .zero ⟨0, 0, 0⟩ (.error (.nacked ⟨[]⟩ .noRoute)), .cancel]
        later output ∧
      output.events = [.failed .finalSegmentNotFound] ∧ later.cancel = (later, {}) := by
  have created : create ⟨[]⟩ {} = .ok { base := ⟨[]⟩, options := {}, retrieval := .ofSize 1 } := rfl
  have fresh : Life { base := ⟨[]⟩, options := {}, retrieval := .ofSize 1 } {} [] _ _ := .refl
  have asked : ∀ request ∈ some (⟨0, 0, 0⟩ : Request), request ∈ [(⟨0, 0, 0⟩ : Request)] := by
    decide
  have life := ((fresh.call .start nofun).call
    (.complete .zero ⟨0, 0, 0⟩ (.error (.nacked ⟨[]⟩ .noRoute))) asked).call .cancel nofun
  obtain ⟨_, _, _, _, _, _, _, _, canceled⟩ := lifecycle created life
  exact ⟨_, _, _, created, life, by decide, canceled (by simp)⟩

end Pipeline

end SegmentRetrieval
