import SegmentRetrieval.Proofs.Retrieval.Fetches
import SegmentRetrieval.Proofs.Verifier.Cascade

/-! # Why a retrieval fails

A packet or a failure counts for a request if it is the first that comes for it and the request was not
aborted (`Ended`).  What was taken in and what is remembered as failed go back to such results, and as
long as the end is unknown none of the packets has declared one (`Traced`).  So the error that ends a
retrieval names a cause that is there (`Cause`), and a failure within the content is never forgiven
(`failures_diagnosed`).
-/

namespace SegmentRetrieval

/-- How the fetch of a request has ended, if the message says so. -/
def Message.result? (request : Request) : Message → Option (Except FetchFailure Data)
  | .completed other result => if other = request then some result else none
  | .cancel => none

theorem Message.result?_eq_some_iff {request : Request} {message : Message}
    {result : Except FetchFailure Data} :
    message.result? request = some result ↔ message = .completed request result := by
  cases message <;> simp [result?]

theorem Message.findSome?_result?_eq_none_iff {request : Request} {messages : List Message} :
    messages.findSome? (result? request) = none ↔ request ∉ messages.filterMap request? := by
  rw [List.findSome?_eq_none_iff, List.mem_filterMap, not_exists]
  apply forall_congr'
  rintro (⟨other, result⟩ | _) <;> simp [result?, request?]

theorem Message.mem_of_findSome?_result? {request : Request} {messages : List Message}
    {result : Except FetchFailure Data} (found : messages.findSome? (result? request) = some result) :
    request ∈ messages.filterMap request? := by
  apply Classical.byContradiction
  intro missing
  rw [findSome?_result?_eq_none_iff.mpr missing] at found
  cases found

namespace Retrieval

variable {size : Nat} {messages : List Message} {retrieval next : Retrieval}
  {output done : Output} {elapsed : Duration} {request : Request}
  {result : Except FetchFailure Data}

/-! ## Results that count -/

/-- The fetch of a request has ended with a result.  Another result for it, or one that comes once it is
aborted, is dropped and does not count. -/
structure Ended (messages : List Message) (output : Output) (request : Request)
    (result : Except FetchFailure Data) : Prop where
  issued : request ∈ output.requests
  first : messages.findSome? (Message.result? request) = some result
  unaborted : request ∉ output.aborted

/-- A result counts if its request runs when it comes. -/
theorem Step.ended_iff (nonempty : 0 < size) (run : Run size messages retrieval output)
    (sound : Sound size none retrieval output) (issued : request ∈ output.requests)
    (step : retrieval.Step elapsed request result next done) (other : Request)
    (outcome : Except FetchFailure Data) :
    Ended (messages ++ [.completed request result]) (output ++ done) other outcome ↔
      Ended messages output other outcome ∨
        retrieval.window.Runs other ∧ other = request ∧ outcome = result := by
  have aborted := (step.aborts (run.fetched nonempty) sound).mem_aborted_iff
  have spared : other ∈ output.requests → retrieval.window.Runs other →
      ¬ Spent messages output other :=
    fun asked runs spent => run.not_runs_of_spent nonempty asked spent runs
  constructor
  · rintro ⟨_, first, unaborted⟩
    rw [Output.aborted_append, List.mem_append, not_or] at unaborted
    rw [List.findSome?_append, Option.or_eq_some_iff, List.findSome?_singleton,
      Message.findSome?_result?_eq_none_iff, Message.result?_eq_some_iff] at first
    rcases first with earlier | ⟨fresh, same⟩
    · have handled := Message.mem_of_findSome?_result? earlier
      exact .inl ⟨run.mem_requests_of_handled handled, earlier, unaborted.1⟩
    · cases same
      refine .inr ⟨?_, rfl, rfl⟩
      -- a request that does not run was handled before, or aborted
      apply Classical.byContradiction
      intro idle
      exact (run.handled_or_aborted nonempty issued idle).elim fresh unaborted.1
  · rintro (ended | ⟨runs, rfl, rfl⟩)
    · refine ⟨List.mem_append_left _ ended.issued, ?_, ?_⟩
      · rw [List.findSome?_append, ended.first]
        rfl
      · rw [Output.aborted_append, List.mem_append, not_or]
        refine ⟨ended.unaborted, fun new => ?_⟩
        have handled := Message.mem_of_findSome?_result? ended.first
        exact spared ended.issued ((aborted other).mp new).1 (.inl handled)
    · have unspent := spared issued runs
      refine ⟨List.mem_append_left _ issued, ?_, ?_⟩
      · have fresh := Message.findSome?_result?_eq_none_iff.mpr fun handled =>
          unspent (.inl handled)
        rw [List.findSome?_append, fresh, Option.none_or, List.findSome?_singleton]
        exact Message.result?_eq_some_iff.mpr rfl
      · rw [Output.aborted_append, List.mem_append, not_or]
        exact ⟨fun old => unspent (.inr (.inl old)), fun new => ((aborted other).mp new).2.1 rfl⟩

/-! ## What a state knows of the results -/

/-- What was taken in and what has failed are results that count; while the end is unknown, none of the
packets declares one. -/
structure Traced (messages : List Message) (retrieval : Retrieval) (output : Output) : Prop where
  took : ∀ n data, retrieval.verifier.Took output.delivered n data →
    ∃ request, request.segment = n ∧ Ended messages output request (.ok data)
  failed : ∀ i n, retrieval.window.Has .failed i n →
    ∃ request failure, request.segment = n ∧ Ended messages output request (.error failure)
  silent : retrieval.window.finalSegment = none →
    ∀ request data, Ended messages output request (.ok data) → data.declared? = none

theorem Absorbs.declared?_eq_none {data : Data} {state : Retrieval} {aborted : Output}
    (absorbs : retrieval.Absorbs request data state aborted)
    (unknown : state.window.finalSegment = none) : data.declared? = none := by
  cases absorbs with
  | silent _ silent =>
    have unread := silent.resolve_right (not_not_intro unknown)
    rw [Data.declared?, unread]
    rfl
  | told => cases unknown

theorem Step.declared?_eq_none {data : Data}
    (step : retrieval.Step elapsed request (.ok data) next done) (live : next.stopped = false)
    (runs : retrieval.window.Runs request) (unknown : next.window.finalSegment = none) :
    data.declared? = none := by
  cases step with
  | stale old =>
    rw [runs.isCurrent] at old
    cases old
  | received _ receives =>
    obtain ⟨_, _, absorbs, _, same, _⟩ := receives.exists_absorbs live
    exact absorbs.declared?_eq_none (same ▸ unknown)

theorem Sound.failed_of_step (sound : Sound size none retrieval output)
    (step : retrieval.Step elapsed request result next done) (live : next.stopped = false)
    {i n : Nat} (fails : next.window.Has .failed i n) :
    (retrieval.window.Has .running request.slot request.segment ∧ n = request.segment ∧
        ∃ failure, result = .error failure) ∨ retrieval.window.Has .failed i n := by
  cases step with
  | stale => exact .inr fails
  | failed runs gives =>
    cases gives with
    | fatal => cases live
    | ignored known past =>
      have within := sound.running_le _ known _ _ runs
      omega
    | lost => cases live
    | remembered =>
      rcases (Window.has_failed_remembered_iff runs).mp fails with ⟨_, here⟩ | before
      · exact .inl ⟨runs, here, _, rfl⟩
      · exact .inr before
  | received runs receives =>
    cases receives with
    | unheard => cases live
    | refused => cases live
    | cut => cases live
    | finished => cases live
    | endless => cases live
    | exhausted absorbs => exact .inr (absorbs.failed fails)
    | requested absorbs =>
      have inside := (sound.absorbed runs absorbs).slots ▸ sound.slot_lt runs
      have before := (Window.has_issued_iff inside).mp fails
      split at before
      · cases before.1
      · exact .inr (absorbs.failed before)

/-- In a run that goes on, what the state knows goes back to results that count. -/
theorem Run.traced (nonempty : 0 < size) (run : Run size messages retrieval output)
    (live : retrieval.stopped = false) : Traced messages retrieval output := by
  refine run.induction_live nonempty (motive := Traced) ?_ ?_ ?_ live
  · refine ⟨fun n data took => ?_, fun i n fails => ?_, fun _ request data ended => ?_⟩
    · exact absurd ⟨data, took⟩ (Sound.not_seen_opened size n)
    · obtain ⟨fetchId, place⟩ := fails
      rw [Sound.slot?_opened] at place
      split at place <;> cases place
    · cases ended.first
  · intro messages retrieval output elapsed request result next done run sound issued step live
      traced
    have ended := step.ended_iff nonempty run sound issued
    have runs := (sound.ledger.runs_iff issued).mpr
    refine ⟨fun n data took => ?_, fun i n fails => ?_, fun unknown other data counted => ?_⟩
    · rcases sound.took_of_step step live took with ⟨began, rfl, rfl⟩ | before
      · exact ⟨request, rfl, (ended _ _).mpr (.inr ⟨runs began, rfl, rfl⟩)⟩
      · obtain ⟨other, same, earlier⟩ := traced.took n data before
        exact ⟨other, same, (ended _ _).mpr (.inl earlier)⟩
    · rcases sound.failed_of_step step live fails with ⟨began, rfl, failure, rfl⟩ | before
      · exact ⟨request, failure, rfl, (ended _ _).mpr (.inr ⟨runs began, rfl, rfl⟩)⟩
      · obtain ⟨other, failure, same, earlier⟩ := traced.failed i n before
        exact ⟨other, failure, same, (ended _ _).mpr (.inl earlier)⟩
    · rcases (ended _ _).mp counted with earlier | ⟨began, rfl, rfl⟩
      · have before : retrieval.window.finalSegment = none :=
          Option.eq_none_iff_forall_ne_some.mpr fun last known => by
            cases unknown.symm.trans (step.finalSegment known)
        exact traced.silent before other data earlier
      · exact step.declared?_eq_none live began unknown
  · exact fun _ traced => ⟨traced.took, traced.failed, traced.silent⟩

/-! ## Errors and their causes -/

/-- What an error says of the step that reports it, which led from `before` to `next`; `earlier` and
`history` are the messages and the output of the run until then, `messages` and `output` those with the
step.  An error without a case here is never reported. -/
inductive Cause (earlier messages : List Message) (before next : Retrieval)
    (history output : Output) : RetrievalError → Prop where
  | fetch {request : Request} {failure : FetchFailure} {last : Nat}
      (known : before.window.finalSegment = some last) (within : request.segment ≤ last)
      (ended : Ended messages output request (.error failure)) :
      Cause earlier messages before next history output (.fetch request.segment failure)
  | segmentFailed {request : Request} {failure : FetchFailure} {last : Nat}
      (unknown : before.window.finalSegment = none)
      (learned : next.window.finalSegment = some last) (within : request.segment ≤ last)
      (ended : Ended earlier history request (.error failure)) :
      Cause earlier messages before next history output (.segmentFailed request.segment)
  | finalSegmentNotFound {request : Request} {failure : FetchFailure}
      (unknown : next.window.finalSegment = none)
      (ended : Ended messages output request (.error failure))
      (silent : ∀ request data, Ended messages output request (.ok data) → data.declared? = none) :
      Cause earlier messages before next history output .finalSegmentNotFound
  | integrity {request : Request} {data : Data} {reason : IntegrityError}
      (ended : Ended messages output request (.ok data))
      (fails : Verifier.FailsCheck output.delivered request.segment data reason) :
      Cause earlier messages before next history output (.integrity request.segment reason)

theorem Step.cause (nonempty : 0 < size) (run : Run size messages retrieval output)
    (live : retrieval.stopped = false) (issued : request ∈ output.requests)
    (step : retrieval.Step elapsed request result next done) {error : RetrievalError}
    (reported : .failed error ∈ done.events) :
    Cause messages (messages ++ [.completed request result]) retrieval next output (output ++ done)
      error := by
  have sound := run.sound nonempty live
  have traced := run.traced nonempty live
  have ended := step.ended_iff nonempty run sound issued
  have current : retrieval.window.Has .running request.slot request.segment →
      Ended (messages ++ [.completed request result]) (output ++ done) request result :=
    fun runs => (ended _ _).mpr (.inr ⟨(sound.ledger.runs_iff issued).mpr runs, rfl, rfl⟩)
  cases step with
  | stale => cases reported
  | failed runs gives =>
    cases gives with
    | fatal known within =>
      obtain ⟨_, rfl⟩ : _ ∧ error = .fetch request.segment _ := by simpa [fail] using reported
      exact .fetch known within (current runs)
    | ignored => cases reported
    | lost unknown _ kept =>
      obtain ⟨_, rfl⟩ : _ ∧ error = .finalSegmentNotFound := by simpa [fail] using reported
      refine .finalSegmentNotFound kept (current runs) fun other data counted => ?_
      rcases (ended _ _).mp counted with earlier | ⟨_, _, same⟩
      · exact traced.silent unknown other data earlier
      · cases same
    | remembered => simp at reported
  | @received data _ _ runs receives =>
    cases receives with
    | unheard => simp [-List.map_take] at reported
    | @refused error' refused =>
      obtain ⟨_, rfl⟩ : _ ∧ error = error' := by simpa [fail] using reported
      obtain ⟨segment, reason, rfl⟩ := Verifier.exists_integrity_of_error refused
      obtain ⟨packet, place, fails⟩ := sound.accepts.failsCheck_of_refused refused
      have log : (output ++ (.ofVerified (retrieval.submitted request data).verified ++
          ((retrieval.taken request data).fail (.integrity segment reason)).2)).delivered =
            output.delivered ++ (retrieval.submitted request data).verified := by simp
      rcases place with ⟨rfl, rfl⟩ | ⟨held, found, rfl⟩
      · exact .integrity (current runs) (log ▸ fails)
      · -- a held packet was the result of an earlier request
        obtain ⟨other, rfl, earlier⟩ := traced.took _ _ (.inl ⟨held, found, rfl⟩)
        exact .integrity ((ended _ _).mpr (.inl earlier)) (log ▸ fails)
    | @cut _ _ segment _ _ unknown _ failed within kept =>
      obtain ⟨_, rfl⟩ : _ ∧ error = .segmentFailed segment := by simpa [fail] using reported
      have before := ((Window.has_markSucceeded_iff (by decide)).mp failed).2
      obtain ⟨other, failure, rfl, earlier⟩ := traced.failed _ _ before
      exact .segmentFailed unknown kept within earlier
    | finished absorbs => simp [complete, absorbs.events] at reported
    | endless absorbs unknown failed =>
      obtain ⟨_, rfl⟩ : _ ∧ error = .finalSegmentNotFound := by
        simpa [fail, absorbs.events] using reported
      obtain ⟨i, n, fails⟩ := (sound.absorbed runs absorbs).failing unknown failed
      obtain ⟨other, failure, _, earlier⟩ := traced.failed i n (absorbs.failed fails)
      refine .finalSegmentNotFound unknown ((ended _ _).mpr (.inl earlier)) ?_
      have before : retrieval.window.finalSegment = none :=
        Option.eq_none_iff_forall_ne_some.mpr fun last known => by
          cases unknown.symm.trans (absorbs.finalSegment known)
      intro asked packet counted
      rcases (ended _ _).mp counted with earlier | ⟨_, _, same⟩
      · exact traced.silent before asked packet earlier
      · cases same
        exact absorbs.declared?_eq_none unknown
    | exhausted absorbs => simp [absorbs.events] at reported
    | requested absorbs => simp [absorbs.events] at reported

/-! ## No failure within the content is forgiven -/

/-- The end that a run has been told: the one that it keeps, or one that came with a packet that was
refused. -/
def Told (messages : List Message) (retrieval : Retrieval) (output : Output) (last : Nat) : Prop :=
  retrieval.window.finalSegment = some last ∨
    retrieval.window.finalSegment = none ∧ ∃ request data,
      Ended messages output request (.ok data) ∧ data.declared? = some last

theorem mem_events_stopWith (heard : retrieval.listening = true) (event : Event) :
    event ∈ (retrieval.stopWith event).2.events := by
  rw [events_stopWith, if_pos heard]
  exact List.mem_singleton_self event

/-- A step that stops a retrieval says why, where somebody is still there after it. -/
theorem Step.reports (step : retrieval.Step elapsed request result next done)
    (live : retrieval.stopped = false) (stopped : next.stopped = true)
    (heard : next.listening = true) :
    (∃ error, .failed error ∈ done.events) ∨ ∃ summary, .completed summary ∈ done.events := by
  have goesOn : retrieval.stopped ≠ true := by simp [live]
  cases step with
  | stale => exact absurd stopped goesOn
  | failed _ gives =>
    cases gives with
    | fatal => exact .inl ⟨_, mem_events_stopWith heard _⟩
    | ignored => exact absurd stopped goesOn
    | lost => exact .inl ⟨_, mem_events_stopWith heard _⟩
    | remembered => exact absurd stopped goesOn
  | received _ receives =>
    cases receives with
    | unheard => cases heard
    | refused => exact .inl ⟨_, List.mem_append_right _ (mem_events_stopWith heard _)⟩
    | cut => exact .inl ⟨_, List.mem_append_right _ (mem_events_stopWith heard _)⟩
    | finished absorbs =>
      have told := @mem_events_stopWith _ heard
      exact .inr ⟨_, List.mem_append_right _ (List.mem_append_right _ (told _))⟩
    | endless absorbs =>
      have told := @mem_events_stopWith _ heard
      exact .inl ⟨_, List.mem_append_right _ (List.mem_append_right _ (told _))⟩
    | exhausted absorbs => exact absurd (absorbs.stopped ▸ stopped) goesOn
    | requested absorbs => exact absurd (absorbs.stopped ▸ stopped) goesOn

theorem Traced.ne_error (traced : Traced messages retrieval output)
    (run : Run size messages retrieval output) (sound : Sound size none retrieval output)
    (seen : retrieval.Seen output request.segment) (failure : FetchFailure) :
    messages.findSome? (Message.result? request) ≠ some (.error failure) := by
  intro failed
  obtain ⟨data, took⟩ := seen
  obtain ⟨other, same, ended⟩ := traced.took _ _ took
  have issued := run.mem_requests_of_handled (Message.mem_of_findSome?_result? failed)
  obtain rfl := sound.ledger.eq_of_segment_eq ended.issued issued same
  cases ended.first.symm.trans failed

/-- A run that goes on has met no failure at or below its end. -/
theorem Run.not_failed_of_live (nonempty : 0 < size) (run : Run size messages retrieval output)
    (live : retrieval.stopped = false) {last : Nat} (told : Told messages retrieval output last)
    (within : request.segment ≤ last) (failure : FetchFailure) :
    messages.findSome? (Message.result? request) ≠ some (.error failure) := by
  intro failed
  have sound := run.sound nonempty live
  have traced := run.traced nonempty live
  have handled := Message.mem_of_findSome?_result? failed
  have issued := run.mem_requests_of_handled handled
  rcases told with known | ⟨unknown, declaring, data, ended, declares⟩
  · -- no place is left for the segment: it was not taken in, and its request does not run
    rcases sound.accounted _ (sound.ledger.segment_lt issued) with seen | ⟨i, runs⟩ |
      ⟨_, known', past⟩ | ⟨unknown, _⟩
    · exact traced.ne_error run sound seen failure failed
    · have same := congrArg Request.slot
        (sound.ledger.eq_of_segment_eq (sound.ledger.mem_of_has runs) issued rfl)
      exact run.not_running_of_handled nonempty live request handled (same ▸ runs)
    · rw [known, Option.some.injEq] at known'
      omega
    · rw [known] at unknown
      cases unknown
  · rw [traced.silent unknown declaring data ended] at declares
    cases declares

/-- When a run completes, every request for a segment up to the end has ended with a packet. -/
theorem Step.received_of_completed (nonempty : 0 < size) (run : Run size messages retrieval output)
    (live : retrieval.stopped = false) (issued : request ∈ output.requests)
    (step : retrieval.Step elapsed request result next done) {summary : Summary}
    (completed : .completed summary ∈ done.events) {last : Nat}
    (known : next.window.finalSegment = some last) {asked : Request}
    (member : asked ∈ (output ++ done).requests) (within : asked.segment ≤ last) :
    ∃ data, Ended (messages ++ [.completed request result]) (output ++ done) asked (.ok data) := by
  have sound := run.sound nonempty live
  have ended := step.ended_iff nonempty run sound issued
  obtain ⟨data, state, aborted, end', rfl, runs, absorbs, _, past, kept, _, nothing, _⟩ :=
    step.completed completed
  rw [known, Option.some.injEq] at kept
  subst kept
  rw [Output.requests_append, nothing, List.append_nil] at member
  have accepts := (sound.absorbed runs absorbs).accepts
  obtain ⟨verified, logged, number⟩ := accepts.mem_log_iff.mpr (Nat.lt_of_le_of_lt within past)
  rcases sound.took_absorbed runs absorbs (.inr ⟨verified, logged, number, rfl⟩) with
    ⟨same, _⟩ | took
  · obtain rfl := sound.ledger.eq_of_segment_eq member issued same
    exact ⟨data, (ended _ _).mpr (.inr ⟨(sound.ledger.runs_iff issued).mpr runs, rfl, rfl⟩)⟩
  · obtain ⟨other, same, earlier⟩ := (run.traced nonempty live).took _ _ took
    obtain rfl := sound.ledger.eq_of_segment_eq earlier.issued member same
    exact ⟨_, (ended _ _).mpr (.inl earlier)⟩

/-- A run that is listened to and not canceled has failed once it has met the end and the failure of a
request at or below it. -/
theorem Run.fails (nonempty : 0 < size) (run : Run size messages retrieval output)
    (heard : retrieval.listening = true) (uncanceled : .cancel ∉ messages) {failure : FetchFailure}
    (failed : messages.findSome? (Message.result? request) = some (.error failure)) {last : Nat}
    (told : Told messages retrieval output last) (within : request.segment ≤ last) :
    retrieval.stopped = true ∧ ∃ error, .failed error ∈ output.events := by
  cases stopped : retrieval.stopped with
  | false => exact absurd failed (run.not_failed_of_live nonempty stopped told within failure)
  | true =>
    refine ⟨rfl, ?_⟩
    have asked := run.mem_requests_of_handled (Message.mem_of_findSome?_result? failed)
    obtain ⟨earlier, before, history, begun, live, sound, ⟨canceled, _⟩ |
      ⟨elapsed, ended, result, next, done, issued, shorter, step, stops, listens, same, rfl⟩⟩ :=
        run.last_step nonempty stopped
    · exact absurd (canceled.subset (List.mem_append_right _ (List.mem_singleton_self _))) uncanceled
    · rcases step.reports live stops (listens heard) with ⟨error, reported⟩ | ⟨summary, completed⟩
      · exact ⟨error, List.mem_append_right _ reported⟩
      · -- the request has ended with a packet, so it did not fail
        obtain ⟨_, _, _, end', _, _, _, _, _, kept, _⟩ := step.completed completed
        have known : next.window.finalSegment = some last := by
          rcases told with known | ⟨unknown, _⟩
          · rwa [same] at known
          · rw [same] at unknown
            cases kept.symm.trans unknown
        obtain ⟨data, received⟩ := step.received_of_completed nonempty begun live issued completed
          known asked within
        cases (shorter.findSome?_eq_some received.first).symm.trans failed

/-! ## The diagnosis -/

/-- Every error is reported by a step whose cause is there.  And a run that is listened to and not
canceled has failed from the step on at which it has met both its end and the failure of a request at
or below it. -/
theorem failures_diagnosed (nonempty : 0 < size) (run : Run size messages retrieval output) :
    (∀ error, .failed error ∈ output.events →
      ∃ earlier before history elapsed request result next done, Run size earlier before history ∧
        before.stopped = false ∧ before.window.Runs request ∧
        before.handle elapsed (.completed request result) = (next, done) ∧
        earlier ++ [.completed request result] <+: messages ∧ output = history ++ done ∧
        .failed error ∈ done.events ∧
        Cause earlier (earlier ++ [.completed request result]) before next history output error) ∧
    (retrieval.listening = true → .cancel ∉ messages → ∀ request failure last,
      messages.findSome? (Message.result? request) = some (.error failure) →
        Told messages retrieval output last → request.segment ≤ last →
          retrieval.stopped = true ∧ ∃ error, .failed error ∈ output.events) := by
  constructor
  · intro error reported
    cases stopped : retrieval.stopped with
    | false => exact absurd reported ((run.sound nonempty stopped).not_mem_events rfl)
    | true =>
      obtain ⟨earlier, before, history, elapsed, message, begun, live, issued, shorter, _, _, rfl⟩ :=
        run.exists_stopping stopped
      have now := (List.mem_append.mp reported).resolve_left
        ((begun.sound nonempty live).not_mem_events rfl)
      rcases begun.handle_cases nonempty elapsed issued with ⟨already, _⟩ | ⟨_, rfl, same⟩ |
        ⟨_, sound, request, result, rfl, asked, step⟩
      · rw [live] at already
        cases already
      · rw [same] at now
        cases now
      · refine ⟨earlier, before, history, elapsed, request, result, _, _, begun, live, ?_, rfl, shorter,
          rfl, now, step.cause nonempty begun live asked now⟩
        -- a request that does not run would have had no effect
        apply Classical.byContradiction
        intro idle
        have spent := (begun.spent_iff nonempty asked).mpr idle
        rw [begun.handle_of_spent nonempty asked spent] at now
        cases now
  · intro heard uncanceled request failure last failed told within
    exact run.fails nonempty heard uncanceled failed told within

/-- The stray packet declares that segment 0 is the final one, and then the request for it fails. -/
theorem failures_diagnosed_stray : ∃ failure retrieval output,
    Run 2 [.completed ⟨1, 1, 1⟩ (.ok stray), .completed ⟨0, 0, 0⟩ (.error failure)] retrieval
        output ∧
      output.events = [.failed (.fetch 0 failure)] ∧ retrieval.stopped = true ∧
      ∃ earlier messages before next history, Cause earlier messages before next history output
        (.fetch 0 failure) := by
  have run := Run.received_stray.handle .zero
    (.completed ⟨0, 0, 0⟩ (.error (.timeoutRetriesExhausted ⟨[]⟩ 0))) fun request same =>
      Option.some.inj same ▸ List.mem_cons_self ..
  have events : ({ requests := [⟨0, 0, 0⟩, ⟨1, 1, 1⟩] } ++ (cutShort.handle .zero
      (.completed ⟨0, 0, 0⟩ (.error (.timeoutRetriesExhausted ⟨[]⟩ 0)))).2 : Output).events =
        [.failed (.fetch 0 (.timeoutRetriesExhausted ⟨[]⟩ 0))] := by decide
  obtain ⟨sound, complete⟩ := failures_diagnosed (by decide) run
  obtain ⟨stopped, _⟩ := complete rfl (by simp) ⟨0, 0, 0⟩ _ 0 rfl (.inl rfl) (Nat.le_refl 0)
  obtain ⟨_, _, _, _, _, _, _, _, _, _, _, _, _, _, _, cause⟩ :=
    sound _ (events ▸ List.mem_singleton_self _)
  exact ⟨_, _, _, run, events, stopped, _, _, _, _, _, cause⟩

end Retrieval

end SegmentRetrieval
