import SegmentRetrieval.Proofs.Pipeline.Life
import SegmentRetrieval.Proofs.Playback.Schedule
import SegmentRetrieval.Proofs.Retrieval.Gathered

/-! # Where the fetches of a playback are

Whatever the face and the order of the turns, the pipeline of a playback goes through a run of its
retrieval, and each request of the run is in one place: its fetch goes on, or has ended and is not
handled yet, or is handled, or was aborted (`Tracks`).  Each turn has a price, which the requests and
the faults pay (`cost`).
-/

namespace SegmentRetrieval

namespace Playback

open Retrieval (Run)

variable {pipeline : Pipeline} {messages : List Message} {output : Output} {playback next : Playback}

/-- The requests whose fetches go on, or have ended and are not handled yet. -/
def pending (playback : Playback) : List Request :=
  playback.tasks.map Task.request ++ playback.ended.map Prod.fst

/-- The playback of a pipeline that has handled `messages` and done `output`. -/
structure Tracks (pipeline : Pipeline) (messages : List Message) (output : Output)
    (playback : Playback) : Prop where
  run : Run pipeline.options.windowSize messages playback.pipeline.retrieval output
  pipeline : playback.pipeline =
    { pipeline with stage := .running, retrieval := playback.pipeline.retrieval }
  stays : playback.pipeline.retrieval.room = none
  events : playback.events = output.events
  asked : ∀ request ∈ playback.pending, request ∈ output.requests
  placed : ∀ request ∈ output.requests, request ∈ playback.pending ∨
    request ∈ messages.filterMap Message.request? ∨ request ∈ output.aborted
  distinct : ((playback.pending ++ messages.filterMap Message.request?).map Request.segment).Nodup

/-- A started pipeline has a task for each slot. -/
theorem start_eq {base : Name} {options : Options} (draws : FetchId → UInt32) (face : MemoryFace)
    (created : Pipeline.create base options = .ok pipeline) :
    settle draws { pipeline, face } pipeline.start =
      { pipeline := { pipeline with
          stage := .running
          retrieval := Retrieval.opened options.windowSize options.windowSize }
        face
        ready := (List.range options.windowSize).map fun i =>
          { request := ⟨i, i, i⟩, fetch := pipeline.fetch draws ⟨i, i, i⟩ } } := by
  rw [Pipeline.eq_of_create created]
  simp only [settle, Pipeline.start, Retrieval.start_ofSize, List.map_map]
  rfl

theorem tasks_start {base : Name} {options : Options} (draws : FetchId → UInt32) (face : MemoryFace)
    (created : Pipeline.create base options = .ok pipeline) :
    (settle draws { pipeline, face } pipeline.start).tasks =
      (List.range options.windowSize).map fun i =>
        { request := ⟨i, i, i⟩, fetch := pipeline.fetch draws ⟨i, i, i⟩ } := by
  rw [start_eq draws face created]
  exact List.append_nil _

theorem tracks_start {base : Name} {options : Options} (draws : FetchId → UInt32) (face : MemoryFace)
    (created : Pipeline.create base options = .ok pipeline) :
    Tracks pipeline [] { requests := (List.range options.windowSize).map fun i => ⟨i, i, i⟩ }
      (settle draws { pipeline, face } pipeline.start) := by
  have pending : (settle draws { pipeline, face } pipeline.start).pending =
      (List.range options.windowSize).map fun i => ⟨i, i, i⟩ := by
    rw [Playback.pending, tasks_start draws face created, start_eq draws face created]
    simp
  have size := congrArg Options.windowSize (Pipeline.options_of_create created)
  have run := @Run.start options.windowSize
  rw [Retrieval.start_ofSize] at run
  refine ⟨?_, ?_, ?_, ?_, ?_, ?_, ?_⟩
  · rw [start_eq draws face created, size]
    exact run
  · rw [start_eq draws face created]
  · rw [start_eq draws face created]
    rfl
  · rw [start_eq draws face created]
  · rw [pending]
    exact fun _ => id
  · rw [pending]
    exact fun _ => .inl
  · rw [pending, List.filterMap_nil, List.append_nil, List.map_map]
    exact (List.map_id _).symm ▸ List.nodup_range

/-- The order of the pending fetches plays no role. -/
theorem Tracks.transfer (tracks : Tracks pipeline messages output playback)
    (same : next.pipeline = playback.pipeline) (events : next.events = playback.events)
    (pending : next.pending.Perm playback.pending) : Tracks pipeline messages output next where
  run := same ▸ tracks.run
  pipeline := by rw [same, ← tracks.pipeline]
  stays := same ▸ tracks.stays
  events := events.trans tracks.events
  asked := fun request member => tracks.asked request (pending.subset member)
  placed := fun request member =>
    (tracks.placed request member).imp_left fun here => pending.symm.subset here
  distinct := ((pending.append_right _).map _).symm.nodup tracks.distinct

/-- The segments of the other requests that are pending or handled are not that of a task. -/
theorem Tracks.segment_ne (tracks : Tracks pipeline messages output playback) {task : Task}
    {others : List Task} (place : playback.tasks.Perm (task :: others)) :
    ∀ request ∈ others.map Task.request ++
        (playback.ended.map Prod.fst ++ messages.filterMap Message.request?),
      request.segment ≠ task.request.segment := by
  have whole := (((place.map Task.request).append_right (playback.ended.map Prod.fst)).append_right
    (messages.filterMap Message.request?)).map Request.segment
  have distinct := whole.nodup tracks.distinct
  rw [List.append_assoc, List.map_cons, List.cons_append, List.map_cons, List.nodup_cons] at distinct
  exact fun request member same => distinct.1 (same ▸ List.mem_map_of_mem member)

theorem perm_pending_of_acts {task : Task} {draw : UInt32} {others : List Task} {fate : Fate}
    {face after : MemoryFace} (acts : task.Acts draw face fate after)
    (place : playback.tasks.Perm (task :: others)) (tasks : next.tasks.Perm (fate.tasks ++ others))
    (ended : next.ended = playback.ended ++ fate.results.map (task.request, ·)) :
    next.pending.Perm playback.pending := by
  have before := (place.map Task.request).append_right (playback.ended.map Prod.fst)
  have now := (tasks.map Task.request).append_right (next.ended.map Prod.fst)
  refine now.trans (List.Perm.trans ?_ before.symm)
  rw [ended]
  cases fate with
  | waits later =>
    have same := (acts.continues later (List.mem_singleton_self _)).request
    simp [Fate.tasks, Fate.results, same]
  | ends result =>
    simp only [Fate.tasks, Fate.results, List.nil_append, List.map_append, List.map_cons,
      List.map_nil, List.cons_append, ← List.append_assoc]
    exact List.perm_append_singleton _ _

theorem Tracks.heard (tracks : Tracks pipeline messages output playback) :
    playback.pipeline.retrieval.listening = true := by
  rw [Retrieval.listening, tracks.stays]
  rfl

/-- A new request is for a segment that was not requested before. -/
theorem nodup_append_segments {old kept fresh requests : List Request}
    (distinct : (old.map Request.segment).Nodup) (part : kept.Sublist old)
    (known : ∀ request ∈ old, request ∈ requests)
    (numbered : ((requests ++ fresh).map Request.segment).Nodup) :
    ((fresh ++ kept).map Request.segment).Nodup := by
  rw [List.map_append, List.nodup_append] at numbered ⊢
  obtain ⟨_, new, apart⟩ := numbered
  refine ⟨new, distinct.sublist (part.map _), fun segment fresh other before same => ?_⟩
  obtain ⟨request, member, rfl⟩ := List.mem_map.mp before
  exact apart _ (List.mem_map_of_mem (known request (part.subset member))) segment fresh same.symm

section handled

variable {request : Request} {result : Except FetchFailure Data} {done : Output}
  {fetch : Request → Fetch}
  (tasks : next.tasks.Perm
    ((playback.tasks.filter fun task => ! done.aborted.contains task.request) ++
      done.requests.map fun request => { request, fetch := fetch request }))
include tasks

/-- When the end of a fetch is handled, aborted requests are pending no more, and new ones are. -/
theorem perm_pending_of_handled : next.pending.Perm
    (((playback.tasks.filter fun task => ! done.aborted.contains task.request).map Task.request ++
      done.requests) ++ next.ended.map Prod.fst) := by
  refine (List.Perm.append_right _ (tasks.map Task.request)).trans (.of_eq ?_)
  rw [List.map_append, List.map_map]
  exact congrArg (· ++ _) (congrArg (_ ++ ·) (List.map_id _))

variable (tracks : Tracks pipeline messages output playback)
  (place : playback.ended.Perm ((request, result) :: next.ended))
include tracks place

theorem Tracks.asked_handled : ∀ asked ∈ next.pending, asked ∈ (output ++ done).requests := by
  have others := (place.map Prod.fst).symm
  intro asked member
  rcases List.mem_append.mp ((perm_pending_of_handled tasks).subset member) with front | ended
  · rcases List.mem_append.mp front with kept | new
    · have before := (List.filter_sublist.map Task.request).subset kept
      exact List.mem_append_left _ (tracks.asked asked (List.mem_append_left _ before))
    · exact List.mem_append_right _ new
  · have before := others.subset (List.mem_cons_of_mem _ ended)
    exact List.mem_append_left _ (tracks.asked asked (List.mem_append_right _ before))

theorem Tracks.placed_handled : ∀ asked ∈ (output ++ done).requests, asked ∈ next.pending ∨
    asked ∈ (messages ++ [Message.completed request result]).filterMap Message.request? ∨
      asked ∈ (output ++ done).aborted := by
  have pending := (perm_pending_of_handled tasks).symm
  have others := place.map Prod.fst
  intro asked member
  rw [List.filterMap_append, List.mem_append]
  rcases List.mem_append.mp member with old | new
  · rcases tracks.placed asked old with waits | handled | aborted
    · rcases List.mem_append.mp waits with live | ended
      · by_cases gone : asked ∈ done.aborted
        · exact .inr (.inr (List.mem_append_right _ gone))
        · obtain ⟨task, here, rfl⟩ := List.mem_map.mp live
          have kept : task ∈ playback.tasks.filter
              fun task => ! done.aborted.contains task.request :=
            List.mem_filter.mpr ⟨here, by simpa using gone⟩
          refine .inl (pending.subset (List.mem_append_left _ (List.mem_append_left _ ?_)))
          exact List.mem_map_of_mem kept
      · rcases List.mem_cons.mp (others.subset ended) with rfl | later
        · exact .inr (.inl (.inr (List.mem_singleton_self _)))
        · exact .inl (pending.subset (List.mem_append_right _ later))
    · exact .inr (.inl (.inl handled))
    · exact .inr (.inr (List.mem_append_left _ aborted))
  · exact .inl (pending.subset (List.mem_append_left _ (List.mem_append_right _ new)))

theorem Tracks.distinct_handled (numbered : ((output ++ done).requests.map Request.segment).Nodup) :
    ((next.pending ++ (messages ++ [Message.completed request result]).filterMap
      Message.request?).map Request.segment).Nodup := by
  have known : ∀ other ∈ playback.pending ++ messages.filterMap Message.request?,
      other ∈ output.requests := by
    intro other member
    rcases List.mem_append.mp member with waits | handled
    · exact tracks.asked other waits
    · exact tracks.run.mem_requests_of_handled handled
  have kept : ((playback.tasks.filter fun task =>
      ! done.aborted.contains task.request).map Task.request).Sublist
        (playback.tasks.map Task.request) := List.filter_sublist.map _
  refine List.Perm.nodup (List.Perm.map _ ?_) (nodup_append_segments tracks.distinct
    ((kept.append_right (playback.ended.map Prod.fst)).append_right
      (messages.filterMap Message.request?)) known numbered)
  have handled : (messages ++ [Message.completed request result]).filterMap Message.request? =
      messages.filterMap Message.request? ++ [request] := List.filterMap_append
  rw [handled]
  -- the handled request moves from the ended fetches to the messages
  refine List.Perm.trans ?_ ((perm_pending_of_handled tasks).symm.append_right _)
  refine List.perm_iff_count.mpr fun other => ?_
  have moved := (place.map Prod.fst).count_eq other
  simp only [List.map_cons, List.count_cons, List.count_append, List.count_nil] at moved ⊢
  omega

end handled

theorem Tracks.handled (nonempty : 0 < pipeline.options.windowSize)
    (tracks : Tracks pipeline messages output playback) {draws : FetchId → UInt32}
    {elapsed : Duration} {request : Request} {result : Except FetchFailure Data}
    (place : playback.ended.Perm ((request, result) :: next.ended))
    (same : next.pipeline = (playback.pipeline.complete elapsed request result).1)
    (events : next.events =
      playback.events ++ (playback.pipeline.complete elapsed request result).2.events)
    (tasks : next.tasks.Perm
      ((playback.tasks.filter fun task =>
          ! (playback.pipeline.complete elapsed request result).2.aborted.contains task.request) ++
        (playback.pipeline.complete elapsed request result).2.requests.map fun request =>
          { request, fetch := next.pipeline.fetch draws request })) :
    Tracks pipeline (messages ++ [.completed request result])
      (output ++ (playback.pipeline.complete elapsed request result).2) next := by
  have running : playback.pipeline.stage = .running := by rw [tracks.pipeline]
  have ends : request ∈ playback.pending := by
    refine List.mem_append_right _ (List.mem_map.mpr ⟨(request, result), ?_, rfl⟩)
    exact place.symm.subset List.mem_cons_self
  have issued : ∀ other ∈ (Message.completed request result).request?, other ∈ output.requests :=
    fun other here => Option.some.inj here ▸ tracks.asked request ends
  have run := tracks.run.handle elapsed (.completed request result) issued
  have numbered := (run.map_segment_requests nonempty).symm ▸ List.nodup_range
  rw [Pipeline.complete_of_running running] at same events tasks ⊢
  refine ⟨?_, ?_, ?_, ?_, tracks.asked_handled tasks place, tracks.placed_handled tasks place,
    tracks.distinct_handled tasks place numbered⟩
  · rw [same]
    exact run
  · rw [same, tracks.pipeline]
  · rw [same]
    exact tracks.run.room_handle nonempty tracks.stays elapsed issued
  · rw [events, tracks.events]
    rfl

/-! ## Something is left to do -/

theorem exists_turn_of_pending {request : Request} (waits : request ∈ playback.pending) :
    ∃ next, Turn playback next := by
  -- any clock will do, and any nonces
  let clock : Clock := ⟨Duration.toNanos⟩
  let draws : FetchId → UInt32 := fun _ => 0
  rcases List.mem_append.mp waits with live | ended
  · obtain ⟨task, member, _⟩ := List.mem_map.mp live
    rcases List.mem_append.mp member with ready | waiting
    · obtain ⟨before, after, place⟩ := List.append_of_mem ready
      exact ⟨_, .go clock draws place⟩
    · obtain ⟨timer, here, _⟩ := List.mem_map.mp waiting
      obtain ⟨before, after, place⟩ := List.append_of_mem here
      exact ⟨_, .wake playback.now place⟩
  · obtain ⟨⟨request, result⟩, member, _⟩ := List.mem_map.mp ended
    obtain ⟨before, after, place⟩ := List.append_of_mem member
    exact ⟨_, .handle draws .zero place⟩

/-- Where the pipeline goes on, something can happen next. -/
theorem Tracks.exists_pending (nonempty : 0 < pipeline.options.windowSize)
    (tracks : Tracks pipeline messages output playback)
    (live : playback.pipeline.retrieval.stopped = false) : ∃ request, request ∈ playback.pending := by
  obtain ⟨request, asked, _, current⟩ := tracks.run.exists_awaited nonempty live
  have ledger := (tracks.run.sound nonempty live).ledger
  have runs := (ledger.runs_iff asked).mpr ((ledger.isCurrent_iff asked).mp current)
  rcases tracks.placed request asked with waits | spent
  · exact ⟨request, waits⟩
  · exact absurd runs (tracks.run.not_runs_of_spent nonempty asked (spent.imp_right .inl))

/-! ## What turns cost -/

/-- What the turns of a playback may cost that makes no more requests: its fetches, a wait for each
timer, the handling of each end, and the Interests that follow faults. -/
def cost (playback : Playback) : Nat :=
  Task.totalCost playback.tasks + playback.timers.length + playback.ended.length +
    6 * MemoryFace.countFaults playback.face.faults

theorem cost_lt_of_acts {task : Task} {draw : UInt32} {others : List Task} {fate : Fate}
    {after : MemoryFace} (acts : task.Acts draw playback.face fate after) (place : playback.tasks.Perm (task :: others))
    (face : next.face = after) (tasks : next.tasks.Perm (fate.tasks ++ others))
    (ended : next.ended = playback.ended ++ fate.results.map (task.request, ·))
    (timers : next.timers.length ≤ playback.timers.length + fate.tasks.length) :
    next.cost < playback.cost := by
  have less := acts.cost_lt
  have parts : Task.totalCost fate.tasks + fate.tasks.length + fate.results.length = fate.cost := by
    cases fate <;> rfl
  simp only [cost, Task.totalCost_eq_of_perm place, Task.totalCost_eq_of_perm tasks,
    Task.totalCost_append, Task.totalCost, ended, face, List.length_append, List.length_map]
  omega

theorem totalCost_map_request (requests : List Request) (fetch : Request → Fetch) :
    Task.totalCost (requests.map fun request => { request, fetch := fetch request }) =
      4 * requests.length := by
  induction requests with
  | nil => rfl
  | cons request requests ih =>
    rw [List.map_cons, Task.totalCost, ih, List.length_cons, Phase.cost]
    omega

/-- A handled end costs one at least, but for the requests that it brings about. -/
theorem cost_lt_of_handled {request : Request} {result : Except FetchFailure Data} {done : Output}
    {fetch : Request → Fetch} (place : playback.ended.Perm ((request, result) :: next.ended))
    (face : next.face = playback.face)
    (tasks : next.tasks.Perm
      ((playback.tasks.filter fun task => ! done.aborted.contains task.request) ++
        done.requests.map fun request => { request, fetch := fetch request }))
    (timers : next.timers.length ≤ playback.timers.length) :
    next.cost < playback.cost + 4 * done.requests.length := by
  have kept : Task.totalCost (playback.tasks.filter fun task =>
      ! done.aborted.contains task.request) ≤ Task.totalCost playback.tasks :=
    Task.totalCost_le_of_sublist List.filter_sublist
  have length := place.length_eq
  rw [List.length_cons] at length
  rw [cost, cost, Task.totalCost_eq_of_perm tasks, Task.totalCost_append, totalCost_map_request,
    face]
  omega

end Playback

end SegmentRetrieval
