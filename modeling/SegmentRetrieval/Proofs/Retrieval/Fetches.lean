import SegmentRetrieval.Proofs.Retrieval.Requests
import SegmentRetrieval.Proofs.Window.Running

/-! # Fetches and the requests that run

Between two messages the live fetches are those of the running requests, each in its slot.  A step
aborts exactly the fetches of the requests that it keeps from running on, but for the one whose fetch
has ended (`Step.aborts`).  So a request that was made runs, or its fetch has ended, or it was
aborted; and one whose fetch has ended, that was aborted, or whose slot has made another request since
does not run (`Run.spent_iff`).
-/

namespace SegmentRetrieval

theorem Ledger.runs_iff {window : Window} {requests : List Request}
    (ledger : Ledger window requests) {request : Request} (member : request ∈ requests) :
    window.Runs request ↔ window.Has .running request.slot request.segment := by
  refine ⟨Window.Runs.has, ?_⟩
  rintro ⟨fetchId, place⟩
  have number : fetchId = request.segment := ledger.ids _ (ledger.owned _ _ place)
  rw [Window.Runs, place, ledger.ids _ member, number]

theorem Ledger.mem_of_runs {window : Window} {requests : List Request}
    (ledger : Ledger window requests) {request : Request} (runs : window.Runs request) :
    request ∈ requests :=
  ledger.owned _ _ runs

/-! ## The fetches of a window -/

/-- The live fetches, by slot, are those of the running requests. -/
def Window.FetchedBy (window : Window) (fetches : List (Option Request)) : Prop :=
  ∀ index request, fetches[index]?.join = some request ↔
    request.slot = index ∧ window.Runs request

namespace Window.FetchedBy

variable {window before after : Window} {fetches : List (Option Request)}

theorem mem_iff (fetched : window.FetchedBy fetches) {request : Request} :
    request ∈ fetches.filterMap id ↔ window.Runs request := by
  rw [List.mem_filterMap]
  constructor
  · rintro ⟨_, member, rfl⟩
    obtain ⟨index, place⟩ := List.mem_iff_getElem?.mp member
    exact ((fetched index request).mp (Option.join_eq_some_iff.mpr place)).2
  · intro runs
    have place := (fetched request.slot request).mpr ⟨rfl, runs⟩
    exact ⟨some request, List.mem_of_getElem? (Option.join_eq_some_iff.mp place), rfl⟩

theorem join_getElem?_set (fetches : List (Option Request)) (slot index : Nat) :
    (fetches.set slot none)[index]?.join = if index = slot then none else fetches[index]?.join := by
  rw [List.getElem?_set]
  by_cases here : index = slot
  · subst here
    simp only [if_true]
    split <;> rfl
  · rw [if_neg (Ne.symm here), if_neg here]

theorem set_none (fetched : before.FetchedBy fetches) {slot : Nat}
    (rest : ∀ request, after.Runs request ↔ request.slot ≠ slot ∧ before.Runs request) :
    after.FetchedBy (fetches.set slot none) := by
  intro index request
  rw [join_getElem?_set, rest]
  split
  next here =>
    subst here
    simp only [reduceCtorEq, ne_eq, false_iff, not_and]
    exact fun same away => absurd same away
  next elsewhere =>
    rw [fetched index request]
    constructor
    · rintro ⟨rfl, runs⟩
      exact ⟨rfl, elsewhere, runs⟩
    · rintro ⟨same, _, runs⟩
      exact ⟨same, runs⟩

theorem join_getElem?_foldl_set (slots : List Nat) (fetches : List (Option Request)) (index : Nat) :
    (slots.foldl (fun fetches slot => fetches.set slot none) fetches)[index]?.join =
      if index ∈ slots then none else fetches[index]?.join := by
  induction slots generalizing fetches with
  | nil => simp
  | cons slot slots ih =>
    rw [List.foldl_cons, ih, join_getElem?_set]
    by_cases here : index = slot <;> by_cases later : index ∈ slots <;> simp [here, later]

theorem length_foldl_set (slots : List Nat) (fetches : List (Option Request)) :
    (slots.foldl (fun fetches slot => fetches.set slot none) fetches).length = fetches.length := by
  induction slots generalizing fetches with
  | nil => rfl
  | cons slot slots ih => rw [List.foldl_cons, ih, List.length_set]

end Window.FetchedBy

namespace Retrieval

theorem not_runs_stop (retrieval : Retrieval) (request : Request) :
    ¬ retrieval.stop.1.window.Runs request :=
  fun runs => retrieval.not_has_running_stop _ _ runs.has

theorem fetchedBy_stop (retrieval : Retrieval) :
    retrieval.stop.1.window.FetchedBy retrieval.stop.1.fetches := by
  intro index request
  have none : retrieval.stop.1.fetches[index]?.join = none := by
    rw [Retrieval.stop, List.getElem?_map]
    cases retrieval.fetches[index]? <;> rfl
  simp [none, retrieval.not_runs_stop]

theorem fetchedBy_opened (size : Nat) :
    (opened size size).window.FetchedBy (opened size size).fetches := by
  intro index request
  have fetch : (opened size size).fetches[index]?.join =
      if index < size then some ⟨index, index, index⟩ else none := by
    simp only [opened, Nat.sub_self, List.replicate_zero, List.append_nil, List.getElem?_map]
    split
    next inside =>
      rw [List.getElem?_range inside]
      rfl
    next outside =>
      rw [List.getElem?_eq_none (by simpa using outside)]
      rfl
  rw [fetch, Window.Runs, Sound.slot?_opened]
  obtain ⟨slot, fetchId, segment⟩ := request
  grind

/-! ## What a step aborts -/

/-- The fetches of a state are those of its running requests, and `aborted` are the requests that ran
before and do not run any more, but for the one of a slot whose fetch has ended. -/
structure Aborts (before : Window) (slot : Nat) (after : Retrieval) (aborted : List Request) :
    Prop where
  fetched : after.window.FetchedBy after.fetches
  mem_aborted_iff : ∀ request, request ∈ aborted ↔
    before.Runs request ∧ request.slot ≠ slot ∧ ¬ after.window.Runs request

/-- The slot has no request yet, and what runs in the others ran before. -/
structure Clears (before : Window) (slot : Nat) (after : Retrieval) (aborted : List Request) : Prop
    extends Aborts before slot after aborted where
  ran : ∀ request, after.window.Runs request → request.slot ≠ slot ∧ before.Runs request

namespace Clears

variable {before : Window} {slot : Nat} {state after : Retrieval} {aborted : List Request}

theorem freed {fetches : List (Option Request)} (fetched : before.FetchedBy fetches)
    (rest : ∀ request, after.window.Runs request ↔ request.slot ≠ slot ∧ before.Runs request)
    (emptied : after.fetches = fetches.set slot none) : Clears before slot after [] where
  ran := fun request => (rest request).mp
  fetched := emptied ▸ fetched.set_none rest
  mem_aborted_iff := by
    intro request
    rw [rest]
    constructor
    · nofun
    · rintro ⟨runs, elsewhere, gone⟩
      exact absurd ⟨elsewhere, runs⟩ gone

/-- Further requests that are kept from running are added to the aborted ones. -/
theorem append (clears : Clears before slot state aborted) {more : List Request}
    (fewer : ∀ request, after.window.Runs request → state.window.Runs request)
    (fetched : after.window.FetchedBy after.fetches)
    (canceled : ∀ request,
      request ∈ more ↔ state.window.Runs request ∧ ¬ after.window.Runs request) :
    Clears before slot after (aborted ++ more) where
  ran := fun request runs => clears.ran request (fewer request runs)
  fetched := fetched
  mem_aborted_iff := by
    intro request
    rw [List.mem_append, clears.mem_aborted_iff, canceled]
    constructor
    · rintro (⟨runs, elsewhere, gone⟩ | ⟨runs, gone⟩)
      · exact ⟨runs, elsewhere, fun still => gone (fewer request still)⟩
      · exact ⟨(clears.ran request runs).2, (clears.ran request runs).1, gone⟩
    · rintro ⟨runs, elsewhere, gone⟩
      by_cases still : state.window.Runs request
      · exact .inr ⟨still, gone⟩
      · exact .inl ⟨runs, elsewhere, still⟩

theorem stop (clears : Clears before slot state aborted) (same : after.fetches = state.fetches) :
    Clears before slot after.stop.1 (aborted ++ after.stop.2.aborted) := by
  refine clears.append (fun request runs => absurd runs (after.not_runs_stop request))
    after.fetchedBy_stop fun request => ?_
  have live : request ∈ after.stop.2.aborted ↔ state.window.Runs request := by
    rw [← clears.fetched.mem_iff, ← same]
    rfl
  rw [live]
  exact (and_iff_left (after.not_runs_stop request)).symm

theorem abort (clears : Clears before slot state aborted) (after : Retrieval)
    (same : after.fetches = state.fetches) {p : Slot → Bool} (cancels : ∀ index,
      after.window.slot? index = (state.window.slot? index).map (Slot.cancelIf p)) :
    Clears before slot (after.abort (state.window.slots.runningWhere p)).1
      (aborted ++ (after.abort (state.window.slots.runningWhere p)).2.aborted) := by
  have kept : ∀ request, after.window.Runs request → state.window.Runs request :=
    fun request runs => ((Window.runs_iff_of_cancels cancels).mp runs).1
  have reported : ∀ request, state.window.Runs request →
      (request.slot ∈ state.window.slots.runningWhere p ↔ ¬ after.window.Runs request) :=
    fun request runs => runs.mem_runningWhere_iff cancels
  refine clears.append kept ?_ ?_
  · intro index request
    have emptied : (after.abort (state.window.slots.runningWhere p)).1.fetches[index]?.join =
        if index ∈ state.window.slots.runningWhere p then none else state.fetches[index]?.join := by
      rw [← same]
      exact Window.FetchedBy.join_getElem?_foldl_set ..
    have window : (after.abort (state.window.slots.runningWhere p)).1.window = after.window := rfl
    rw [emptied, window]
    split
    next member =>
      simp only [reduceCtorEq, false_iff, not_and]
      rintro rfl runs
      exact (reported request (kept request runs)).mp member runs
    next absent =>
      rw [clears.fetched index request]
      refine and_congr_right fun here => ⟨fun runs => ?_, kept request⟩
      subst here
      exact Classical.not_not.mp fun gone => absent ((reported request runs).mpr gone)
  · intro request
    simp only [Retrieval.abort, List.mem_filterMap, same, clears.fetched _ request]
    constructor
    · rintro ⟨_, member, rfl, runs⟩
      exact ⟨runs, (reported request runs).mp member⟩
    · rintro ⟨runs, gone⟩
      exact ⟨request.slot, (reported request runs).mpr gone, rfl, runs⟩

theorem idle (clears : Clears before slot state aborted) : state.fetches[slot]?.join = none := by
  rw [Option.eq_none_iff_forall_ne_some]
  intro request found
  obtain ⟨here, runs⟩ := (clears.fetched slot request).mp found
  exact (clears.ran request runs).1 here

/-- Requesting the next segment through the slot gives it a fetch again and aborts none. -/
theorem requested (clears : Clears before slot state aborted) (inside : slot < state.window.size)
    (owned : slot < state.fetches.length) :
    Aborts before slot (state.requested slot).1 (aborted ++ (state.requested slot).2.aborted) := by
  have runs : ∀ request, (state.requested slot).1.window.Runs request ↔ if request.slot = slot
      then request = ⟨slot, state.window.nextFetchId, state.window.nextSegment⟩
      else state.window.Runs request :=
    fun request => Window.runs_issued_iff inside
  constructor
  · intro index request
    have placed : (state.requested slot).1.fetches[index]?.join = if index = slot
        then some ⟨slot, state.window.nextFetchId, state.window.nextSegment⟩
        else state.fetches[index]?.join := by
      simp only [Retrieval.requested, issue, Window.bind, List.getElem?_set]
      by_cases here : index = slot
      · subst here
        simp [owned]
      · simp [here, Ne.symm here]
    rw [placed, runs]
    split
    next here =>
      subst here
      rw [Option.some.injEq, eq_comm]
      constructor
      · rintro rfl
        exact ⟨rfl, by rw [if_pos rfl]⟩
      · rintro ⟨here, same⟩
        rwa [if_pos here] at same
    next elsewhere =>
      rw [clears.fetched index request]
      refine and_congr_right fun here => ?_
      rw [if_neg (here ▸ elsewhere)]
  · intro request
    have none : (state.requested slot).2.aborted = [] := by
      simp [Retrieval.requested, issue, clears.idle]
    rw [none, List.append_nil, clears.mem_aborted_iff]
    refine and_congr_right fun _ => and_congr_right fun elsewhere => ?_
    rw [runs, if_neg elsewhere]

end Clears

section step

variable {size : Nat} {retrieval : Retrieval} {output : Output} {request : Request}

theorem Absorbs.length_fetches {data : Data} {state : Retrieval} {aborted : Output}
    (absorbs : retrieval.Absorbs request data state aborted) :
    state.fetches.length = retrieval.fetches.length := by
  cases absorbs with
  | silent => exact List.length_set
  | told => exact (Window.FetchedBy.length_foldl_set ..).trans List.length_set

theorem Absorbs.nextFetchId {data : Data} {state : Retrieval} {aborted : Output}
    (absorbs : retrieval.Absorbs request data state aborted) :
    state.window.nextFetchId = retrieval.window.nextFetchId := by
  cases absorbs <;> rfl

theorem Step.eq_or_ran {elapsed : Duration} {result : Except FetchFailure Data}
    {next : Retrieval} {done : Output} (step : retrieval.Step elapsed request result next done) :
    next = retrieval ∨ retrieval.window.Has .running request.slot request.segment := by
  cases step with
  | stale => exact .inl rfl
  | failed runs => exact .inr runs
  | received runs => exact .inr runs

section fetched

variable (fetched : retrieval.window.FetchedBy retrieval.fetches)
include fetched

theorem clears_taken (request : Request) (data : Data) :
    Clears retrieval.window request.slot (retrieval.taken request data) [] :=
  .freed fetched
    (fun _ => Window.runs_iff_of_sets (retrieval.window.slot?_markSucceeded _) (by decide)) rfl

theorem Absorbs.clears {data : Data} {state : Retrieval} {aborted : Output}
    (absorbs : retrieval.Absorbs request data state aborted) :
    Clears retrieval.window request.slot state aborted.aborted := by
  have taken := clears_taken fetched request data
  cases absorbs with
  | silent => exact taken
  | @told last =>
    have learns := (retrieval.taken request data).window.slot?_learned last.toNat
    exact taken.abort { retrieval.taken request data with
      window := (retrieval.taken request data).window.learned last.toNat
      verifier := (retrieval.taken request data).verifier.discardBeyond last.toNat } rfl learns

theorem GivesUp.clears {failure : FetchFailure} {next : Retrieval} {done : Output}
    (gives : retrieval.GivesUp request failure next done) :
    Clears retrieval.window request.slot next done.aborted := by
  have failed : Clears retrieval.window request.slot
      (retrieval.bereft request (retrieval.window.markFailed request.slot)) [] :=
    .freed fetched
      (fun _ => Window.runs_iff_of_sets (retrieval.window.slot?_markFailed _) (by decide)) rfl
  cases gives with
  | fatal => exact failed.stop rfl
  | ignored => exact failed
  | lost => exact failed.stop rfl
  | remembered =>
    have remembers := retrieval.window.slot?_remembered request.slot request.segment
    exact failed.abort (retrieval.bereft request
      (retrieval.window.remembered request.slot request.segment)) rfl remembers

theorem Step.aborts {elapsed : Duration} {result : Except FetchFailure Data} {next : Retrieval}
    {done : Output} (sound : Sound size none retrieval output)
    (step : retrieval.Step elapsed request result next done) :
    Aborts retrieval.window request.slot next done.aborted := by
  cases step with
  | stale =>
    refine ⟨fetched, fun other => ⟨nofun, ?_⟩⟩
    rintro ⟨runs, _, gone⟩
    exact absurd runs gone
  | failed _ gives => exact Clears.toAborts (gives.clears fetched)
  | @received data _ _ runs receives =>
    have taken := clears_taken fetched request data
    cases receives with
    | unheard => exact Clears.toAborts (taken.stop rfl)
    | refused => exact Clears.toAborts (taken.stop rfl)
    | cut => exact Clears.toAborts (taken.stop rfl)
    | finished absorbs => exact Clears.toAborts ((absorbs.clears fetched).stop rfl)
    | endless absorbs => exact Clears.toAborts ((absorbs.clears fetched).stop rfl)
    | exhausted absorbs => exact Clears.toAborts (absorbs.clears fetched)
    | requested absorbs =>
      have inside := (sound.absorbed runs absorbs).slots ▸ sound.slot_lt runs
      -- the slot had a fetch, so there is room for another
      obtain ⟨fetchId, place⟩ := runs
      have found := (fetched request.slot ⟨_, fetchId, _⟩).mpr ⟨rfl, place⟩
      obtain ⟨owned, _⟩ := List.getElem?_eq_some_iff.mp (Option.join_eq_some_iff.mp found)
      exact (absorbs.clears fetched).requested inside (absorbs.length_fetches ▸ owned)

end fetched

theorem Step.runs_requested {elapsed : Duration} {result : Except FetchFailure Data}
    {next : Retrieval} {done : Output} (sound : Sound size none retrieval output)
    (step : retrieval.Step elapsed request result next done) :
    ∀ asked ∈ done.requests,
      asked.fetchId = retrieval.window.nextFetchId ∧ next.window.Runs asked := by
  cases step with
  | stale => nofun
  | failed _ gives => cases gives <;> nofun
  | received runs receives =>
    cases receives with
    | unheard => nofun
    | refused => nofun
    | cut => nofun
    | finished absorbs => simp [complete, absorbs.requests]
    | endless absorbs => simp [fail, absorbs.requests]
    | exhausted absorbs => simp [absorbs.requests]
    | @requested state aborted absorbs =>
      intro asked member
      have new : asked = ⟨request.slot, state.window.nextFetchId, state.window.nextSegment⟩ := by
        simpa [absorbs.requests, Retrieval.requested, issue, Window.bind] using member
      have inside := (sound.absorbed runs absorbs).slots ▸ sound.slot_lt runs
      subst new
      exact ⟨absorbs.nextFetchId, (Window.runs_issued_iff inside).mpr (by rw [if_pos rfl])⟩

theorem Sound.runs_of_step {elapsed : Duration} {result : Except FetchFailure Data}
    {next : Retrieval} {done : Output} (sound : Sound size none retrieval output)
    (live : retrieval.stopped = false) (issued : request ∈ output.requests)
    (step : retrieval.Step elapsed request result next done) {other : Request}
    (asked : other ∈ output.requests) (runs : next.window.Runs other) :
    retrieval.window.Runs other ∧ other ≠ request := by
  cases stopped : next.stopped with
  | true =>
    obtain ⟨state, rfl⟩ := (step.exists_stop live stopped).1
    exact absurd runs (state.not_runs_stop other)
  | false =>
    obtain ⟨another, before | new⟩ := sound.running_of_step issued step stopped runs.has
    · exact ⟨(sound.ledger.runs_iff asked).mpr before, fun same => another (congrArg _ same)⟩
    · have earlier := sound.ledger.segment_lt asked
      omega

end step

/-! ## Runs -/

section run

variable {size : Nat} {messages : List Message} {retrieval : Retrieval} {output : Output}
  (nonempty : 0 < size) (run : Run size messages retrieval output)
include nonempty run

theorem Run.fetched : retrieval.window.FetchedBy retrieval.fetches := by
  induction run with
  | start =>
    rw [start_ofSize]
    exact fetchedBy_opened size
  | @handle _ before _ run elapsed message issued ih =>
    rcases run.handle_cases nonempty elapsed issued with ⟨_, same⟩ | ⟨_, _, same⟩ |
      ⟨_, sound, _, _, _, _, step⟩
    · rwa [same]
    · rw [same]
      exact before.fetchedBy_stop
    · exact (step.aborts ih sound).fetched
  | leave _ _ ih => exact ih

theorem Run.not_runs_of_stopped (stopped : retrieval.stopped = true) (request : Request) :
    ¬ retrieval.window.Runs request :=
  fun runs => run.not_has_running_of_stopped nonempty stopped _ _ runs.has

/-- A message aborts the requests that it keeps from running on, but for the one whose fetch has
ended. -/
theorem Run.mem_aborted_handle_iff (elapsed : Duration) {message : Message}
    (issued : ∀ request ∈ message.request?, request ∈ output.requests) {request : Request} :
    request ∈ (retrieval.handle elapsed message).2.aborted ↔
      retrieval.window.Runs request ∧ request ∉ message.request? ∧
        ¬ (retrieval.handle elapsed message).1.window.Runs request := by
  rcases run.handle_cases nonempty elapsed issued with ⟨stopped, same⟩ | ⟨_, rfl, same⟩ |
    ⟨_, sound, ended, _, rfl, asked, step⟩
  · simp [same, run.not_runs_of_stopped nonempty stopped request]
  · rw [same]
    refine (run.fetched nonempty).mem_iff.trans ?_
    simp [Message.request?, retrieval.not_runs_stop]
  · rw [(step.aborts (run.fetched nonempty) sound).mem_aborted_iff request]
    refine and_congr_right fun runs => and_congr_left fun gone => not_congr ?_
    -- a request that ran in the slot of the one that has ended is that one
    refine Iff.trans ⟨fun here => ?_, fun here => congrArg Request.slot here.symm⟩
      Option.mem_some.symm
    rcases step.eq_or_ran with same | started
    · rw [same] at gone
      exact absurd runs gone
    · exact ((sound.ledger.runs_iff asked).mpr started).eq_of_slot_eq runs here.symm

/-- A request made before a message runs after it only if it ran before and is not the one whose fetch
has ended. -/
theorem Run.runs_of_handle (elapsed : Duration) {message : Message}
    (issued : ∀ request ∈ message.request?, request ∈ output.requests) {request : Request}
    (asked : request ∈ output.requests)
    (runs : (retrieval.handle elapsed message).1.window.Runs request) :
    retrieval.window.Runs request ∧ request ∉ message.request? := by
  rcases run.handle_cases nonempty elapsed issued with ⟨stopped, same⟩ | ⟨_, rfl, same⟩ |
    ⟨live, sound, ended, _, rfl, began, step⟩
  · rw [same] at runs
    exact absurd runs (run.not_runs_of_stopped nonempty stopped request)
  · rw [same] at runs
    exact absurd runs (retrieval.not_runs_stop request)
  · obtain ⟨before, another⟩ := sound.runs_of_step live began step asked runs
    exact ⟨before, fun here => another (Option.mem_some.mp here).symm⟩

/-- What a message requests is newer than all requests before, and runs after it. -/
theorem Run.runs_requested (elapsed : Duration) {message : Message}
    (issued : ∀ request ∈ message.request?, request ∈ output.requests) :
    ∀ asked ∈ (retrieval.handle elapsed message).2.requests,
      (∀ earlier ∈ output.requests, earlier.fetchId < asked.fetchId) ∧
        (retrieval.handle elapsed message).1.window.Runs asked := by
  rcases run.handle_cases nonempty elapsed issued with ⟨_, same⟩ | ⟨_, _, same⟩ |
    ⟨_, sound, _, _, _, _, step⟩
  · simp [same]
  · simp [same, stop]
  · intro asked member
    obtain ⟨number, runs⟩ := step.runs_requested sound asked member
    refine ⟨fun earlier old => ?_, runs⟩
    rw [number, sound.ledger.ids _ old, sound.ledger.next]
    exact sound.ledger.segment_lt old

theorem Run.mem_requests_of_runs {request : Request} (runs : retrieval.window.Runs request) :
    request ∈ output.requests := by
  cases stopped : retrieval.stopped with
  | false => exact (run.sound nonempty stopped).ledger.mem_of_runs runs
  | true => exact absurd runs (run.not_runs_of_stopped nonempty stopped request)

theorem Run.mem_requests_of_aborted {request : Request} (aborted : request ∈ output.aborted) :
    request ∈ output.requests := by
  induction run with
  | start =>
    rw [start_ofSize] at aborted
    cases aborted
  | handle run elapsed _ issued ih =>
    refine List.mem_append_left _ ?_
    rcases List.mem_append.mp aborted with earlier | new
    · exact ih earlier
    · have runs := ((run.mem_aborted_handle_iff nonempty elapsed issued).mp new).1
      exact run.mem_requests_of_runs nonempty runs
  | leave _ _ ih => exact ih aborted

end run

/-! ## What has become of a request -/

/-- The fetch of a request has ended or was aborted, or its slot has made another request since. -/
def Spent (messages : List Message) (output : Output) (request : Request) : Prop :=
  request ∈ messages.filterMap Message.request? ∨ request ∈ output.aborted ∨
    ∃ later ∈ output.requests, later.slot = request.slot ∧ request.fetchId < later.fetchId

section spent

variable {size : Nat} {messages : List Message} {retrieval : Retrieval} {output : Output}
  {request : Request}

theorem Spent.append (spent : Spent messages output request) (more : List Message)
    (done : Output) : Spent (messages ++ more) (output ++ done) request := by
  rcases spent with ended | aborted | ⟨later, member, same, number⟩
  · refine .inl ?_
    rw [List.filterMap_append]
    exact List.mem_append_left _ ended
  · exact .inr (.inl (List.mem_append_left _ aborted))
  · exact .inr (.inr ⟨later, List.mem_append_left _ member, same, number⟩)

theorem Run.not_runs_of_spent (nonempty : 0 < size) (run : Run size messages retrieval output)
    (issued : request ∈ output.requests) (spent : Spent messages output request) :
    ¬ retrieval.window.Runs request := by
  induction run with
  | start =>
    -- the first requests have different slots
    rw [start_ofSize] at issued spent
    obtain ⟨i, _, rfl⟩ := List.mem_map.mp issued
    rcases spent with ended | aborted | ⟨later, member, same, number⟩
    · cases ended
    · cases aborted
    · obtain ⟨j, _, rfl⟩ := List.mem_map.mp member
      exact absurd same (Nat.ne_of_gt number)
  | @handle messages before history run elapsed message known ih =>
    intro runs
    have requested := run.runs_requested nonempty elapsed known
    have spared : request ∈ history.requests →
        ¬ Spent messages history request ∧ request ∉ message.request? := by
      intro asked
      obtain ⟨ran, other⟩ := run.runs_of_handle nonempty elapsed known asked runs
      exact ⟨fun spent => ih asked spent ran, other⟩
    rcases spent with ended | aborted | ⟨later, member, same, number⟩
    · rw [List.filterMap_append, List.mem_append] at ended
      rcases ended with earlier | last
      · exact (spared (run.mem_requests_of_handled earlier)).1 (.inl earlier)
      · obtain ⟨_, here, last⟩ := List.mem_filterMap.mp last
        rw [List.mem_singleton.mp here] at last
        exact (spared (known request last)).2 last
    · rcases List.mem_append.mp aborted with earlier | new
      · exact (spared (run.mem_requests_of_aborted nonempty earlier)).1 (.inr (.inl earlier))
      · exact ((run.mem_aborted_handle_iff nonempty elapsed known).mp new).2.2 runs
    · rcases List.mem_append.mp member with earlier | new
      · rcases List.mem_append.mp issued with asked | asked
        · exact (spared asked).1 (.inr (.inr ⟨later, earlier, same, number⟩))
        · exact Nat.lt_asymm number ((requested request asked).1 later earlier)
      · -- the slot runs the later request
        have one := (requested later new).2.eq_of_slot_eq runs same
        rw [one] at number
        exact absurd number (Nat.lt_irrefl _)
  | leave _ _ ih => exact ih issued spent

/-- A request that was made runs until its fetch has ended or was aborted. -/
theorem Run.handled_or_aborted (nonempty : 0 < size) (run : Run size messages retrieval output)
    (issued : request ∈ output.requests) (idle : ¬ retrieval.window.Runs request) :
    request ∈ messages.filterMap Message.request? ∨ request ∈ output.aborted := by
  induction run with
  | start =>
    rw [start_ofSize] at issued idle
    obtain ⟨i, inside, rfl⟩ := List.mem_map.mp issued
    refine absurd ?_ idle
    rw [Window.Runs, Sound.slot?_opened, if_pos (List.mem_range.mp inside)]
  | @handle _ before _ run elapsed message known ih =>
    rw [List.filterMap_append, List.mem_append, Output.aborted_append, List.mem_append]
    rcases List.mem_append.mp issued with asked | asked
    · by_cases ended : request ∈ message.request?
      · exact .inl (.inr (List.mem_filterMap.mpr ⟨message, List.mem_singleton_self _, ended⟩))
      · by_cases ran : before.window.Runs request
        · exact .inr (.inr ((run.mem_aborted_handle_iff nonempty elapsed known).mpr
            ⟨ran, ended, idle⟩))
        · exact (ih asked ran).imp .inl .inl
    · exact absurd (run.runs_requested nonempty elapsed known request asked).2 idle
  | leave _ _ ih => exact ih issued idle

theorem Run.spent_iff (nonempty : 0 < size) (run : Run size messages retrieval output)
    (issued : request ∈ output.requests) :
    Spent messages output request ↔ ¬ retrieval.window.Runs request :=
  ⟨run.not_runs_of_spent nonempty issued,
    fun idle => (run.handled_or_aborted nonempty issued idle).imp_right .inl⟩

/-- The end of the fetch of a spent request changes nothing. -/
theorem Run.handle_of_spent (nonempty : 0 < size) (run : Run size messages retrieval output)
    (issued : request ∈ output.requests) (spent : Spent messages output request)
    (elapsed : Duration) (result : Except FetchFailure Data) :
    retrieval.handle elapsed (.completed request result) = (retrieval, {}) := by
  cases stopped : retrieval.stopped with
  | true => exact handle_of_stopped stopped elapsed _
  | false =>
    have sound := run.sound nonempty stopped
    rw [sound.handle_completed nonempty stopped elapsed issued]
    refine if_neg fun current => (run.spent_iff nonempty issued).mp spent ?_
    exact (sound.ledger.runs_iff issued).mpr ((sound.ledger.isCurrent_iff issued).mp current)

end spent

end Retrieval

end SegmentRetrieval
