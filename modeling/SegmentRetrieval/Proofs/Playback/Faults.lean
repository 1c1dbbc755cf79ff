import SegmentRetrieval.Proofs.Playback.Tracking
import SegmentRetrieval.Proofs.Retrieval.Late

/-! # Transient faults are not seen

A face serves a sealed chain and plays back faults.  Where those of each segment of the chain are ones
that the retry limit bears, every fetch for a segment of the chain brings its packet in the end, and a
fetch past the end may fail as it likes.  So the retrieval is served the chain, whatever the order of
the turns: it reports what it reports without any fault, and the faults cost one Interest each.
-/

namespace SegmentRetrieval

namespace Playback

open Retrieval (Run Served Serves)

variable {pipeline : Pipeline} {pieces : List Bytes} {injected : Nat → List InterestError}
  {messages : List Message} {output : Output} {playback next : Playback}

/-- What holds while the segments of a chain are fetched over a face that plays back the faults
`injected` for each of them.  A segment is not requested, and its faults are all left; or its fetch goes
on and accounts for them; or its fetch has ended, and they are played back. -/
structure Weathers (pipeline : Pipeline) (pieces : List Bytes) (injected : Nat → List InterestError)
    (messages : List Message) (output : Output) (playback : Playback) : Prop where
  handled : Served (Chain.sealPieces pipeline.base pieces .everySegment) messages
  ended : ∀ entry ∈ playback.ended,
    Serves (Chain.sealPieces pipeline.base pieces .everySegment) entry.1 entry.2
  packets : ∀ n < UInt64.size,
    playback.face.packets.get? (pipeline.base.appendSegment (UInt64.ofNat n)) =
      (Chain.sealPieces pipeline.base pieces .everySegment)[n]?
  named : ∀ task ∈ playback.tasks,
    task.name = pipeline.base.appendSegment (UInt64.ofNat task.request.segment) ∧
      task.fetch.limit = pipeline.options.retryLimit
  live : ∀ task ∈ playback.tasks, task.request.segment < pieces.length →
    ∃ played, task.Accounts playback.face (injected task.request.segment) played
  spent : ∀ request ∈ playback.ended.map Prod.fst ++ messages.filterMap Message.request?,
    request.segment < pieces.length →
      playback.face.timesExpressed
          (pipeline.base.appendSegment (UInt64.ofNat request.segment)) =
        (injected request.segment).length + 1
  untouched : ∀ n < pieces.length, n ∉ output.requests.map Request.segment →
    playback.face.faultsOf (pipeline.base.appendSegment (UInt64.ofNat n)) = injected n ∧
      playback.face.timesExpressed (pipeline.base.appendSegment (UInt64.ofNat n)) = 0

/-- A fetch that has not begun owes nothing. -/
theorem accounts_fetch {draws : FetchId → UInt32} {face : MemoryFace} {request : Request}
    {faults : List InterestError}
    (left : face.faultsOf (pipeline.base.appendSegment (UInt64.ofNat request.segment)) = faults)
    (fresh : face.timesExpressed (pipeline.base.appendSegment (UInt64.ofNat request.segment)) = 0) :
    ({ request, fetch := pipeline.fetch draws request } : Task).Accounts face faults [] :=
  ⟨left.symm, rfl, rfl, fresh⟩

theorem accounts_of_same {task : Task} {face after : MemoryFace}
    {faults played : List InterestError} (accounts : task.Accounts face faults played)
    (left : after.faultsOf task.name = face.faultsOf task.name)
    (expressed : after.timesExpressed task.name = face.timesExpressed task.name) :
    task.Accounts after faults played :=
  ⟨left ▸ accounts.left, accounts.timeouts, accounts.nacks, expressed.trans accounts.expressed⟩

theorem Weathers.woken (weathers : Weathers pipeline pieces injected messages output playback)
    (face : next.face = playback.face) (tasks : next.tasks.Perm playback.tasks)
    (ended : next.ended = playback.ended) :
    Weathers pipeline pieces injected messages output next where
  handled := weathers.handled
  ended := ended ▸ weathers.ended
  packets := face ▸ weathers.packets
  named := fun task member => weathers.named task (tasks.subset member)
  live := fun task member => face ▸ weathers.live task (tasks.subset member)
  spent := by
    rw [ended, face]
    exact weathers.spent
  untouched := face ▸ weathers.untouched

section acted

variable {task : Task} {draw : UInt32} {others : List Task} {fate : Fate} {after : MemoryFace}
  (counted : ∀ request ∈ output.requests, request.segment < UInt64.size)
  (tracks : Tracks pipeline messages output playback)
  (weathers : Weathers pipeline pieces injected messages output playback)
  (place : playback.tasks.Perm (task :: others)) (acts : task.Acts draw playback.face fate after)
include counted tracks weathers place acts

/-- A turn of the task for one segment leaves the names of the others as they are. -/
theorem Weathers.apart {n : Nat} (small : n < UInt64.size) (differ : n ≠ task.request.segment) :
    after.faultsOf (pipeline.base.appendSegment (UInt64.ofNat n)) =
        playback.face.faultsOf (pipeline.base.appendSegment (UInt64.ofNat n)) ∧
      after.timesExpressed (pipeline.base.appendSegment (UInt64.ofNat n)) =
        playback.face.timesExpressed (pipeline.base.appendSegment (UInt64.ofNat n)) := by
  have member : task ∈ playback.tasks := place.symm.subset List.mem_cons_self
  have asked := tracks.asked _ (List.mem_append_left _ (List.mem_map_of_mem member))
  have other : pipeline.base.appendSegment (UInt64.ofNat n) ≠ task.name := by
    rw [(weathers.named task member).1]
    exact fun same => differ (Name.eq_of_appendSegment_eq small (counted _ asked) same)
  exact ⟨acts.faultsOf_of_ne other, acts.timesExpressed_of_ne other⟩

/-- A fetch for a segment of the chain goes on or brings the packet, and a fetch past the end brings
none. -/
theorem Weathers.fate_cases
    (bears : ∀ n < pieces.length, pipeline.options.retryLimit.Bears (injected n)) :
    (∃ later, fate = .waits later ∧ (task.request.segment < pieces.length →
        ∃ played, later.Accounts after (injected task.request.segment) played)) ∨
      ∃ result, fate = .ends result ∧
        Serves (Chain.sealPieces pipeline.base pieces .everySegment) task.request result ∧
        (task.request.segment < pieces.length →
          after.timesExpressed (pipeline.base.appendSegment (UInt64.ofNat task.request.segment)) =
            (injected task.request.segment).length + 1) := by
  have member : task ∈ playback.tasks := place.symm.subset List.mem_cons_self
  have asked := tracks.asked _ (List.mem_append_left _ (List.mem_map_of_mem member))
  obtain ⟨name, limit⟩ := weathers.named task member
  have kept := weathers.packets _ (counted _ asked)
  rw [← name] at kept ⊢
  by_cases inside : task.request.segment < pieces.length
  · obtain ⟨packet, here⟩ : ∃ packet, (Chain.sealPieces pipeline.base pieces
        .everySegment)[task.request.segment]? = some packet :=
      ⟨_, List.getElem?_eq_getElem (by rwa [Chain.length_sealPieces])⟩
    obtain ⟨played, accounts⟩ := weathers.live task member inside
    rcases accounts.acts (limit ▸ bears _ inside) (kept.trans here) acts with
      ⟨later, more, rfl, still⟩ | ⟨rfl, expressed⟩
    · exact .inl ⟨later, rfl, fun _ => ⟨more, still⟩⟩
    · refine .inr ⟨.ok packet, rfl, ?_, fun _ => expressed⟩
      rw [Serves, here]
  · have beyond : (Chain.sealPieces pipeline.base pieces
        .everySegment)[task.request.segment]? = none :=
      List.getElem?_eq_none (by rw [Chain.length_sealPieces]; omega)
    cases fate with
    | waits later => exact .inl ⟨later, rfl, fun within => absurd within inside⟩
    | ends result =>
      refine .inr ⟨result, rfl, ?_, fun within => absurd within inside⟩
      rw [Serves, beyond]
      cases result with
      | error failure => exact ⟨failure, rfl⟩
      | ok data => cases (acts.get?_of_ends rfl).symm.trans (kept.trans beyond)

section next

variable (bears : ∀ n < pieces.length, pipeline.options.retryLimit.Bears (injected n))
  (small : pieces.length ≤ UInt64.size) (face : next.face = after)
include bears small face

theorem Weathers.live_acted (tasks : next.tasks.Perm (fate.tasks ++ others)) :
    ∀ other ∈ next.tasks, other.request.segment < pieces.length →
      ∃ played, other.Accounts next.face (injected other.request.segment) played := by
  subst face
  intro other here inside
  rcases List.mem_append.mp (tasks.subset here) with new | before
  · rcases weathers.fate_cases counted tracks place acts bears with
      ⟨later, rfl, accounts⟩ | ⟨result, rfl, _⟩
    · have goes := acts.continues other new
      cases List.mem_singleton.mp new
      rw [goes.request] at inside ⊢
      exact accounts inside
    · cases new
  · have old : other ∈ playback.tasks := place.symm.subset (List.mem_cons_of_mem _ before)
    have differ := tracks.segment_ne place other.request
      (List.mem_append_left _ (List.mem_map_of_mem before))
    obtain ⟨left, expressed⟩ := weathers.apart counted tracks place acts
      (Nat.lt_of_lt_of_le inside small) differ
    obtain ⟨played, accounts⟩ := weathers.live other old inside
    rw [← (weathers.named other old).1] at left expressed
    exact ⟨played, accounts_of_same accounts left expressed⟩

theorem Weathers.spent_acted
    (ended : next.ended = playback.ended ++ fate.results.map (task.request, ·)) :
    ∀ request ∈ next.ended.map Prod.fst ++ messages.filterMap Message.request?,
      request.segment < pieces.length →
        next.face.timesExpressed (pipeline.base.appendSegment (UInt64.ofNat request.segment)) =
          (injected request.segment).length + 1 := by
  subst face
  intro request here inside
  have earlier : request ∈ playback.ended.map Prod.fst ++ messages.filterMap Message.request? →
      next.face.timesExpressed (pipeline.base.appendSegment (UInt64.ofNat request.segment)) =
        (injected request.segment).length + 1 := by
    intro before
    have differ := tracks.segment_ne place request (List.mem_append_right _ before)
    rw [(weathers.apart counted tracks place acts (Nat.lt_of_lt_of_le inside small) differ).2]
    exact weathers.spent request before inside
  rw [ended, List.map_append, List.append_assoc] at here
  rcases List.mem_append.mp here with before | rest
  · exact earlier (List.mem_append_left _ before)
  · rcases List.mem_append.mp rest with new | before
    · rcases weathers.fate_cases counted tracks place acts bears with
        ⟨later, rfl, _⟩ | ⟨result, rfl, _, expressed⟩
      · cases new
      · cases List.mem_singleton.mp new
        exact expressed inside
    · exact earlier (List.mem_append_right _ before)

theorem Weathers.acted (tasks : next.tasks.Perm (fate.tasks ++ others))
    (ended : next.ended = playback.ended ++ fate.results.map (task.request, ·)) :
    Weathers pipeline pieces injected messages output next := by
  have member : task ∈ playback.tasks := place.symm.subset List.mem_cons_self
  have asked := tracks.asked _ (List.mem_append_left _ (List.mem_map_of_mem member))
  refine ⟨weathers.handled, ?_, ?_, ?_,
    weathers.live_acted counted tracks place acts bears small face tasks,
    weathers.spent_acted counted tracks place acts bears small face ended, ?_⟩
  · intro entry here
    rw [ended] at here
    rcases List.mem_append.mp here with before | new
    · exact weathers.ended entry before
    · rcases weathers.fate_cases counted tracks place acts bears with
        ⟨later, rfl, _⟩ | ⟨result, rfl, serves, _⟩
      · cases new
      · cases List.mem_singleton.mp new
        exact serves
  · rw [face, acts.packets]
    exact weathers.packets
  · intro other here
    rcases List.mem_append.mp (tasks.subset here) with new | before
    · have goes := acts.continues other new
      obtain ⟨name, limit⟩ := weathers.named task member
      rw [goes.request]
      exact ⟨goes.fetch.name.trans name, goes.fetch.limit.trans limit⟩
    · exact weathers.named other (place.symm.subset (List.mem_cons_of_mem _ before))
  · intro n inside fresh
    have differ : n ≠ task.request.segment := by
      rintro rfl
      exact fresh (List.mem_map_of_mem asked)
    obtain ⟨left, expressed⟩ := weathers.apart counted tracks place acts
      (Nat.lt_of_lt_of_le inside small) differ
    rw [face, left, expressed]
    exact weathers.untouched n inside fresh

end next

end acted

/-- The end of a fetch is handled, and new fetches begin. -/
theorem Weathers.handles {request : Request} {result : Except FetchFailure Data} {done : Output}
    {draws : FetchId → UInt32} (tracks : Tracks pipeline (messages ++ [.completed request result]) (output ++ done) next)
    (weathers : Weathers pipeline pieces injected messages output playback)
    (numbered : ((output ++ done).requests.map Request.segment).Nodup)
    (place : playback.ended.Perm ((request, result) :: next.ended))
    (face : next.face = playback.face)
    (tasks : next.tasks.Perm
      ((playback.tasks.filter fun task => ! done.aborted.contains task.request) ++
        done.requests.map fun request => { request, fetch := next.pipeline.fetch draws request })) :
    Weathers pipeline pieces injected (messages ++ [.completed request result]) (output ++ done)
      next := by
  have handled : (messages ++ [Message.completed request result]).filterMap Message.request? =
      messages.filterMap Message.request? ++ [request] := List.filterMap_append
  have fetch : next.pipeline.fetch = pipeline.fetch := by rw [tracks.pipeline]; rfl
  rw [Output.requests_append, List.map_append, List.nodup_append] at numbered
  refine ⟨?_, ?_, ?_, ?_, ?_, ?_, ?_⟩
  · have once := tracks.distinct
    rw [List.map_append, List.nodup_append] at once
    refine ⟨List.Pairwise.of_map _ (fun _ _ differ same => differ (congrArg _ same)) once.2.1, ?_⟩
    intro message member
    rcases List.mem_append.mp member with before | new
    · exact weathers.handled.served message before
    · cases List.mem_singleton.mp new
      exact ⟨request, result, rfl, weathers.ended _ (place.symm.subset List.mem_cons_self)⟩
  · exact fun entry here => weathers.ended entry (place.symm.subset (List.mem_cons_of_mem _ here))
  · exact face ▸ weathers.packets
  · intro task member
    rcases List.mem_append.mp (tasks.subset member) with kept | new
    · exact weathers.named task (List.mem_filter.mp kept).1
    · obtain ⟨asked, _, rfl⟩ := List.mem_map.mp new
      rw [fetch]
      exact ⟨rfl, rfl⟩
  · intro task member inside
    rw [face]
    rcases List.mem_append.mp (tasks.subset member) with kept | new
    · exact weathers.live task (List.mem_filter.mp kept).1 inside
    · obtain ⟨asked, here, rfl⟩ := List.mem_map.mp new
      have fresh : asked.segment ∉ output.requests.map Request.segment := fun before =>
        numbered.2.2 _ before _ (List.mem_map_of_mem here) rfl
      obtain ⟨left, expressed⟩ := weathers.untouched asked.segment inside fresh
      rw [fetch]
      exact ⟨[], accounts_fetch left expressed⟩
  · intro asked member
    rw [face]
    refine weathers.spent asked ?_
    rw [handled] at member
    have before := (place.map Prod.fst).symm.subset
    rcases List.mem_append.mp member with ended | later
    · exact List.mem_append_left _ (before (List.mem_cons_of_mem _ ended))
    · rcases List.mem_append.mp later with earlier | now
      · exact List.mem_append_right _ earlier
      · cases List.mem_singleton.mp now
        exact List.mem_append_left _ (before List.mem_cons_self)
  · intro n inside fresh
    rw [face]
    refine weathers.untouched n inside fun before => fresh ?_
    rw [Output.requests_append, List.map_append]
    exact List.mem_append_left _ before

theorem weathers_start {base : Name} {options : Options} (draws : FetchId → UInt32) {face : MemoryFace}
    (created : Pipeline.create base options = .ok pipeline)
    (primed : face.Primed base pieces injected) :
    Weathers pipeline pieces injected []
      { requests := (List.range options.windowSize).map fun i => ⟨i, i, i⟩ }
      (settle draws { pipeline, face } pipeline.start) := by
  have tasks := tasks_start draws face created
  have base := Pipeline.base_of_create created
  rw [start_eq draws face created] at tasks ⊢
  subst base
  refine ⟨⟨.nil, nofun⟩, nofun, primed.packets, ?_, ?_, nofun,
    fun n inside _ => ⟨primed.faults n inside, primed.unasked n inside⟩⟩
  · intro task member
    rw [tasks] at member
    obtain ⟨i, _, rfl⟩ := List.mem_map.mp member
    exact ⟨rfl, rfl⟩
  · intro task member inside
    rw [tasks] at member
    obtain ⟨i, _, rfl⟩ := List.mem_map.mp member
    exact ⟨[], accounts_fetch (primed.faults i inside) (primed.unasked i inside)⟩

/-! ## The whole playback -/

theorem Weathers.length_requests_le (nonempty : 0 < pipeline.options.windowSize)
    (fits : Chain.Fits pieces) (tracks : Tracks pipeline messages output playback)
    (weathers : Weathers pipeline pieces injected messages output playback) :
    output.requests.length ≤ max pipeline.options.windowSize pieces.length :=
  tracks.run.length_requests_le nonempty fits tracks.heard weathers.handled

/-- The numbers of the requested segments fit their names. -/
theorem Weathers.counted (nonempty : 0 < pipeline.options.windowSize)
    (within : pipeline.options.windowSize ≤ maxWindowSize) (fits : Chain.Fits pieces)
    (tracks : Tracks pipeline messages output playback)
    (weathers : Weathers pipeline pieces injected messages output playback) :
    ∀ request ∈ output.requests, request.segment < UInt64.size := by
  intro request member
  have number : request.segment ∈ output.requests.map Request.segment :=
    List.mem_map_of_mem member
  rw [tracks.run.map_segment_requests nonempty, List.mem_range] at number
  have bound := weathers.length_requests_le nonempty fits tracks
  have counted := fits.counted
  have wide : maxWindowSize ≤ UInt64.size := by decide
  omega

section playback

variable {base : Name} {options : Options} {face : MemoryFace}
  (created : Pipeline.create base options = .ok pipeline) (fits : Chain.Fits pieces)
  (bears : ∀ n < pieces.length, options.retryLimit.Bears (injected n))
  (primed : face.Primed base pieces injected)
include created fits bears primed

/-- After any turns the pipeline is served the chain, and the turns so far were paid for. -/
theorem Played.weathers {turns : Nat} (played : Played pipeline face turns playback) :
    ∃ messages output, Tracks pipeline messages output playback ∧
      Weathers pipeline pieces injected messages output playback ∧
      turns + playback.cost + 4 * (max options.windowSize pieces.length - output.requests.length) ≤
        4 * max options.windowSize pieces.length + 6 * MemoryFace.countFaults face.faults := by
  have settings := Pipeline.options_of_create created
  obtain ⟨nonempty, within⟩ := Pipeline.windowSize_of_create created
  rw [← settings] at bears nonempty within
  induction played with
  | start draws =>
    refine ⟨_, _, tracks_start draws face created, weathers_start draws created primed, ?_⟩
    have first := totalCost_map_request ((List.range options.windowSize).map fun i => ⟨i, i, i⟩)
      (pipeline.fetch draws)
    rw [List.map_map, List.length_map, List.length_range] at first
    have begun : (settle draws { pipeline, face } pipeline.start).cost =
        4 * options.windowSize + 6 * MemoryFace.countFaults face.faults := by
      rw [cost, tasks_start draws face created, ← first, start_eq draws face created]
      rfl
    rw [begun, List.length_map, List.length_range]
    omega
  | @turn turns playback next played turn ih =>
    obtain ⟨messages, output, tracks, weathers, paid⟩ := ih
    cases turn.turned with
    | @acted task draw others place same events face tasks ended timers =>
      have acts := task.acts draw playback.face
      have counted := weathers.counted nonempty within fits tracks
      refine ⟨messages, output, tracks.transfer same events
        (perm_pending_of_acts acts place tasks ended),
        weathers.acted counted tracks place acts bears fits.counted face tasks ended, ?_⟩
      have less := cost_lt_of_acts acts place face tasks ended timers
      omega
    | woken same events face tasks ended timers =>
      refine ⟨messages, output, tracks.transfer same events ?_, weathers.woken face tasks ended, ?_⟩
      · rw [pending, pending, ended]
        exact (tasks.map _).append_right _
      · simp only [cost, Task.totalCost_eq_of_perm tasks, ended, face] at paid ⊢
        omega
    | @handled draws elapsed request result place same events face tasks timers =>
      have tracks := tracks.handled nonempty place same events tasks
      have numbered := (tracks.run.map_segment_requests nonempty).symm ▸ List.nodup_range
      have weathers := weathers.handles tracks numbered place face tasks
      refine ⟨_, _, tracks, weathers, ?_⟩
      have more := weathers.length_requests_le nonempty fits tracks
      have less := cost_lt_of_handled place face tasks timers
      rw [settings, Output.requests_append, List.length_append] at more
      rw [Output.requests_append, List.length_append]
      omega

theorem Played.turns_le {turns : Nat} (played : Played pipeline face turns playback) :
    turns ≤ 4 * max options.windowSize pieces.length + 6 * MemoryFace.countFaults face.faults := by
  obtain ⟨_, _, _, _, paid⟩ := played.weathers created fits bears primed
  omega

/-- Before the pipeline has ended, something can happen next. -/
theorem Played.exists_turn {turns : Nat} (played : Played pipeline face turns playback)
    (live : playback.pipeline.hasEnded = false) : ∃ next, Turn playback next := by
  obtain ⟨messages, output, tracks, _, _⟩ := played.weathers created fits bears primed
  have settings := Pipeline.options_of_create created
  have nonempty := settings ▸ (Pipeline.windowSize_of_create created).1
  obtain ⟨request, waits⟩ := tracks.exists_pending nonempty (Bool.or_eq_false_iff.mp live).2
  exact exists_turn_of_pending waits

/-- A pipeline that has ended has reported the whole chain, and its face has seen one Interest and one
more for each fault under the name of each segment. -/
theorem Played.gathered {turns : Nat} (played : Played pipeline face turns playback)
    (ended : playback.pipeline.hasEnded = true) :
    (∃ elapsed, playback.events = (Chain.segments base pieces .everySegment).map .segment ++
        [.completed ⟨pieces.length, pieces.flatten.length, elapsed⟩]) ∧
      ∀ n < pieces.length, playback.face.timesExpressed (base.appendSegment (UInt64.ofNat n)) =
        (injected n).length + 1 := by
  obtain ⟨messages, output, tracks, weathers, _⟩ :=
    played.weathers created fits bears primed
  have settings := Pipeline.options_of_create created
  have prefixed := Pipeline.base_of_create created
  have nonempty := settings ▸ (Pipeline.windowSize_of_create created).1
  have stopped : playback.pipeline.retrieval.stopped = true := by
    rw [tracks.pipeline] at ended
    exact ended
  obtain ⟨events, all⟩ := tracks.run.gathered nonempty fits tracks.heard weathers.handled stopped
  subst prefixed
  refine ⟨tracks.events ▸ events, fun n inside => ?_⟩
  obtain ⟨request, handled, rfl⟩ := all n inside
  exact weathers.spent request (List.mem_append_right _ handled) inside

/-- The clock plays the pipeline to its end. -/
theorem exists_played_run (clock : Clock) (draws : Nat → FetchId → UInt32) :
    ∃ turns, Played pipeline face turns (run clock draws pipeline face) ∧
      (run clock draws pipeline face).pipeline.hasEnded = true := by
  have settings := Pipeline.options_of_create created
  have known := primed.known
  have enough : 4 * max options.windowSize pieces.length +
      6 * MemoryFace.countFaults face.faults ≤
        (settle (draws 0) { pipeline, face } pipeline.start).stepBound := by
    rw [start_eq (draws 0) face created, stepBound, ← MemoryFace.countFaults, settings]
    dsimp only
    omega
  obtain ⟨turns, played, stuck⟩ := played_run
    (fun _ _ played => played.turns_le created fits bears primed) enough
  refine ⟨turns, played, Bool.not_eq_false _ ▸ fun live => ?_⟩
  obtain ⟨next, turn⟩ := played.exists_turn created fits bears primed live
  exact stuck next turn

end playback

/-! ## Injected faults -/

/-- Transient faults are not seen.  A pipeline with valid options is played over a face that serves a
sealed chain with any delay; the faults injected for the names of the chain are ones that its retry limit
bears, and other names may have any.  Then in any order of the turns it ends, and where it has ended, it
has reported what it reports without the faults but for the time, which is every piece in order and the
completion, and each segment has cost one Interest and one more for each of its faults. -/
theorem transient_faults_invisible {base : Name} {options : Options}
    (created : Pipeline.create base options = .ok pipeline) (fits : Chain.Fits pieces)
    (clock : Clock) (draws : Nat → FetchId → UInt32) (delay : Duration)
    (faults : List (Name × InterestError))
    (bearable : ∀ n < pieces.length, options.retryLimit.Bears
      (MemoryFace.injectedFor faults (base.appendSegment (UInt64.ofNat n)))) :
    let plain := MemoryFace.serving (Chain.sealPieces base pieces .everySegment) delay
    let face := plain.injectAll faults
    (∀ turns playback, Played pipeline face turns playback →
      turns ≤ 4 * max options.windowSize pieces.length + 6 * faults.length ∧
      (playback.pipeline.hasEnded = false → ∃ next, Turn playback next) ∧
      (playback.pipeline.hasEnded = true →
        playback.events.map Event.untimed = (run clock draws pipeline plain).events.map Event.untimed ∧
        (∃ elapsed, playback.events = (Chain.segments base pieces .everySegment).map .segment ++
          [.completed ⟨pieces.length, pieces.flatten.length, elapsed⟩]) ∧
        ∀ n < pieces.length,
          playback.face.timesExpressed (base.appendSegment (UInt64.ofNat n)) =
            1 + (MemoryFace.injectedFor faults (base.appendSegment (UInt64.ofNat n))).length)) ∧
    (∃ turns, Played pipeline face turns (run clock draws pipeline face)) ∧
    (run clock draws pipeline face).pipeline.hasEnded = true := by
  intro plain face
  have primed : ∀ faults, (plain.injectAll faults).Primed base pieces _ := fun faults =>
    MemoryFace.primed_injectAll_serving fits.counted delay faults
  have unharmed : ∀ n < pieces.length, options.retryLimit.Bears
      (MemoryFace.injectedFor [] (base.appendSegment (UInt64.ofNat n))) :=
    fun _ _ => ⟨nofun, fun _ _ => Nat.zero_le _, fun _ _ => Nat.zero_le _⟩
  -- the retrieval without faults is the one to which none are injected
  obtain ⟨_, calm, finished⟩ := exists_played_run created fits unharmed (primed []) clock draws
  obtain ⟨⟨_, usual⟩, _⟩ := calm.gathered created fits unharmed (primed []) finished
  obtain ⟨turns, played, ends⟩ := exists_played_run created fits bearable (primed faults) clock draws
  refine ⟨fun turns playback played => ⟨?_, ?_, fun ended => ?_⟩, ⟨turns, played⟩, ends⟩
  · have bound := played.turns_le created fits bearable (primed faults)
    have fewer : MemoryFace.countFaults (plain.injectAll faults).faults ≤ faults.length :=
      MemoryFace.countFaults_injectAll_serving_le ..
    omega
  · exact played.exists_turn created fits bearable (primed faults)
  · obtain ⟨⟨elapsed, events⟩, expressed⟩ :=
      played.gathered created fits bearable (primed faults) ended
    refine ⟨?_, ⟨elapsed, events⟩, fun n inside => ?_⟩
    · rw [events]
      refine Eq.trans ?_ (congrArg (List.map Event.untimed) usual).symm
      rw [List.map_append, List.map_append]
      rfl
    · rw [expressed n inside, Nat.add_comm]

/-- Faults for each segment of a chain of three, both kinds for the first one, and a Nack past the end, of
a retrieval that allows one retry of each kind through two slots. -/
theorem transient_faults_invisible_retried : ∃ pipeline,
    Pipeline.create ⟨[]⟩ { windowSize := 2, retryLimit := .bounded 1 } = .ok pipeline ∧
      let pieces : List Bytes := [[1], [2, 3], [4]]
      let name (n : UInt64) : Name := Name.appendSegment ⟨[]⟩ n
      let faults : List (Name × InterestError) :=
        [(name 0, .timeout), (name 1, .nack .congestion), (name 3, .nack .unspecified),
          (name 2, .timeout), (name 0, .nack .duplicate)]
      let face := MemoryFace.serving (Chain.sealPieces ⟨[]⟩ pieces .everySegment) (.ofMillis 5)
      let last := run (.ticking 1000000) (fun k fetchId => UInt32.ofNat (k + fetchId)) pipeline
        (face.injectAll faults)
      (∃ elapsed, last.events = (Chain.segments ⟨[]⟩ pieces .everySegment).map .segment ++
          [.completed ⟨3, 4, elapsed⟩]) ∧
        last.face.timesExpressed (name 0) = 3 ∧ last.face.timesExpressed (name 1) = 2 ∧
        last.face.timesExpressed (name 2) = 2 := by
  have created : Pipeline.create ⟨[]⟩ { windowSize := 2, retryLimit := .bounded 1 } = .ok {
      base := ⟨[]⟩
      options := { windowSize := 2, retryLimit := .bounded 1 }
      retrieval := .ofSize 2 } := rfl
  refine ⟨_, created, ?_⟩
  intro pieces name faults face last
  have fits : Chain.Fits pieces := ⟨by decide, by decide, by decide⟩
  have bearable : ∀ n < pieces.length, RetryLimit.Bears (.bounded 1)
      (MemoryFace.injectedFor faults (Name.appendSegment ⟨[]⟩ (UInt64.ofNat n))) := by
    have counts : ∀ n < pieces.length,
        let injected := MemoryFace.injectedFor faults (Name.appendSegment ⟨[]⟩ (UInt64.ofNat n))
        (∀ fault ∈ injected, fault.isTransient = true) ∧ injected.count .timeout ≤ 1 ∧
          injected.countP InterestError.isNack ≤ 1 := by decide
    intro n inside
    obtain ⟨transient, timeouts, nacks⟩ := counts n inside
    exact ⟨transient, fun _ same => RetryLimit.bounded.inj same ▸ timeouts,
      fun _ same => RetryLimit.bounded.inj same ▸ nacks⟩
  obtain ⟨all, ⟨turns, played⟩, ended⟩ :=
    transient_faults_invisible created fits (.ticking 1000000)
      (fun k fetchId => UInt32.ofNat (k + fetchId)) (.ofMillis 5) faults bearable
  obtain ⟨_, events, expressed⟩ := (all turns last played).2.2 ended
  exact ⟨events, expressed 0 (by decide), expressed 1 (by decide), expressed 2 (by decide)⟩

end Playback

end SegmentRetrieval
