import SegmentRetrieval.Proofs.Playback.Task

/-! # Playbacks in any order

The clock of a playback decides which fetch goes on next.  Here nothing decides it: any task whose turn
has come may go on, any wait may be over at any time, and the fetches that have ended are handled in any
order, with any nonces drawn (`Turn`).  What a turn does is one of three things (`Turned`), and the order of the tasks plays no
role in it.  A playback by the clock is one of these (`Playback.played_run`).
-/

namespace SegmentRetrieval

namespace Playback

/-- The fetches that go on. -/
def tasks (playback : Playback) : List Task :=
  playback.ready ++ playback.timers.map Timer.task

/-- One thing that can happen next, whatever the clock says and whatever nonces are drawn. -/
inductive Turn (playback : Playback) : Playback → Prop where
  | go (clock : Clock) (draws : FetchId → UInt32) {before after : List Task} {task : Task}
      (place : playback.ready = before ++ task :: after) :
      Turn playback ({ playback with ready := before ++ after }.runTask clock draws task)
  | wake {before after : List Timer} {timer : Timer} (now : Nat)
      (place : playback.timers = before ++ timer :: after) :
      Turn playback
        { playback with now, ready := playback.ready ++ [timer.task], timers := before ++ after }
  | handle (draws : FetchId → UInt32) {before after : List (Request × Except FetchFailure Data)}
      {request : Request} {result : Except FetchFailure Data} (elapsed : Duration)
      (place : playback.ended = before ++ (request, result) :: after) :
      Turn playback ({ playback with ended := before ++ after }.settle draws
        (playback.pipeline.complete elapsed request result))

/-- A pipeline that is started over a face is in this state after so many turns. -/
inductive Played (pipeline : Pipeline) (face : MemoryFace) : Nat → Playback → Prop where
  | start (draws : FetchId → UInt32) :
      Played pipeline face 0 (settle draws { pipeline, face } pipeline.start)
  | turn {turns : Nat} {playback next : Playback} (played : Played pipeline face turns playback)
      (turn : Turn playback next) : Played pipeline face (turns + 1) next

variable {playback next : Playback} {clock : Clock} {draws : FetchId → UInt32}

/-! ## Turns -/

/-- The playback with a task that has the given fate, on a face. -/
structure Takes (playback : Playback) (request : Request) (fate : Fate) (face : MemoryFace)
    (next : Playback) : Prop where
  pipeline : next.pipeline = playback.pipeline
  events : next.events = playback.events
  face : next.face = face
  tasks : next.tasks.Perm (fate.tasks ++ playback.tasks)
  ended : next.ended = playback.ended ++ fate.results.map (request, ·)
  timers : next.timers.length ≤ playback.timers.length + fate.tasks.length

theorem perm_addTimer (timers : List Timer) (timer : Timer) :
    (addTimer timers timer).Perm (timer :: timers) := by
  refine List.perm_middle.trans ?_
  rw [List.takeWhile_append_dropWhile]

theorem takes_resumeAfter (wait : Nat) (task : Task) (request : Request) :
    playback.Takes request (.waits task) playback.face (playback.resumeAfter wait task) := by
  unfold resumeAfter
  split
  · exact ⟨rfl, rfl, rfl, .refl _, (List.append_nil _).symm, Nat.le_succ _⟩
  · have timers := perm_addTimer playback.timers ⟨playback.now + wait, task⟩
    refine ⟨rfl, rfl, rfl, ?_, (List.append_nil _).symm, Nat.le_of_eq timers.length_eq⟩
    exact ((timers.map Timer.task).append_left playback.ready).trans List.perm_middle

theorem takes_resolve (task : Task) (outcome : Outcome) :
    playback.Takes task.request (task.told (draws task.request.fetchId) outcome) playback.face
      (playback.resolve clock draws task outcome) := by
  simp only [resolve, Task.told]
  cases task.fetch.answer (draws task.request.fetchId) outcome with
  | finished result => exact ⟨rfl, rfl, rfl, .refl _, rfl, Nat.le_refl _⟩
  | again wait fetch => exact takes_resumeAfter ..

/-- The turn of a task puts another in its place, or ends its fetch. -/
theorem takes_runTask (task : Task) :
    playback.Takes task.request (task.act (draws task.request.fetchId) playback.face).1
      (task.act (draws task.request.fetchId) playback.face).2 (playback.runTask clock draws task) := by
  -- only the face may differ from that of the playback before
  have onFace : ∀ {face : MemoryFace} {fate : Fate} {next : Playback},
      { playback with face }.Takes task.request fate face next →
        playback.Takes task.request fate face next :=
    fun takes => ⟨takes.pipeline, takes.events, takes.face, takes.tasks, takes.ended, takes.timers⟩
  simp only [runTask, Task.act]
  cases task.phase with
  | expressing => exact onFace (takes_resumeAfter ..)
  | meeting =>
    dsimp only
    obtain ⟨outcome, face⟩ := playback.face.answer task.fetch.interest.name
    have resolves := fun outcome => onFace (@takes_resolve { playback with face } clock draws task outcome)
    rcases outcome with (_ | reason) | data
    · exact onFace (@takes_resumeAfter { playback with face } ..)
    · exact resolves (.error (.nack reason))
    · exact resolves (.ok data)
  | expiring => exact takes_resolve ..

/-- What a turn does: a task has its turn, a wait is over, or the end of a fetch is handled. -/
inductive Turned (playback next : Playback) : Prop where
  | acted {task : Task} {draw : UInt32} {others : List Task} (place : playback.tasks.Perm (task :: others))
      (pipeline : next.pipeline = playback.pipeline) (events : next.events = playback.events)
      (face : next.face = (task.act draw playback.face).2)
      (tasks : next.tasks.Perm ((task.act draw playback.face).1.tasks ++ others))
      (ended : next.ended =
        playback.ended ++ (task.act draw playback.face).1.results.map (task.request, ·))
      (timers : next.timers.length ≤
        playback.timers.length + (task.act draw playback.face).1.tasks.length)
  | woken (pipeline : next.pipeline = playback.pipeline) (events : next.events = playback.events)
      (face : next.face = playback.face) (tasks : next.tasks.Perm playback.tasks)
      (ended : next.ended = playback.ended)
      (timers : next.timers.length < playback.timers.length)
  | handled {draws : FetchId → UInt32} {elapsed : Duration} {request : Request}
      {result : Except FetchFailure Data}
      (place : playback.ended.Perm ((request, result) :: next.ended))
      (pipeline : next.pipeline = (playback.pipeline.complete elapsed request result).1)
      (events : next.events =
        playback.events ++ (playback.pipeline.complete elapsed request result).2.events)
      (face : next.face = playback.face)
      (tasks : next.tasks.Perm
        ((playback.tasks.filter fun task =>
            ! (playback.pipeline.complete elapsed request result).2.aborted.contains task.request) ++
          (playback.pipeline.complete elapsed request result).2.requests.map fun request =>
            { request, fetch := next.pipeline.fetch draws request }))
      (timers : next.timers.length ≤ playback.timers.length)

theorem perm_tasks_settle (step : Pipeline × Output) :
    (playback.settle draws step).tasks.Perm
      ((playback.tasks.filter fun task => ! step.2.aborted.contains task.request) ++
        step.2.requests.map fun request => { request, fetch := step.1.fetch draws request }) := by
  simp only [tasks, settle, List.filter_append, List.filter_map, List.append_assoc]
  exact .append_left _ List.perm_append_comm

theorem Turn.turned (turn : Turn playback next) : Turned playback next := by
  cases turn with
  | @go clock draws before after task place =>
    have tasks : playback.tasks.Perm (task :: { playback with ready := before ++ after }.tasks) := by
      rw [Playback.tasks, place, List.append_assoc]
      exact List.perm_middle.trans (.cons _ (.of_eq (List.append_assoc ..).symm))
    have takes := @takes_runTask { playback with ready := before ++ after } clock draws task
    exact .acted tasks takes.pipeline takes.events takes.face takes.tasks takes.ended takes.timers
  | @wake before after timer now place =>
    refine .woken rfl rfl rfl ?_ rfl ?_
    · simp only [tasks, place, List.map_append, List.map_cons, List.append_assoc,
        List.singleton_append]
      exact .append_left _ List.perm_middle.symm
    · simp [place]
  | @handle draws before after request result elapsed place =>
    refine .handled (place ▸ List.perm_middle) rfl rfl rfl (perm_tasks_settle _) ?_
    exact List.length_filter_le ..

/-! ## The clock -/

/-- Some turns lead from a playback to another. -/
inductive Turns : Nat → Playback → Playback → Prop where
  | refl {playback : Playback} : Turns 0 playback playback
  | head {turns : Nat} {playback next last : Playback} (turn : Turn playback next)
      (rest : Turns turns next last) : Turns (turns + 1) playback last

theorem Played.turns {pipeline : Pipeline} {face : MemoryFace} {turns more : Nat}
    (played : Played pipeline face turns playback) (onward : Turns more playback next) :
    Played pipeline face (turns + more) next := by
  induction onward generalizing turns with
  | refl => exact played
  | head turn _ ih =>
    rw [Nat.add_comm _ 1, ← Nat.add_assoc]
    exact ih (played.turn turn)

/-- The ended fetches are handled one after another. -/
theorem turns_handleEnded (draws : FetchId → UInt32) (playback : Playback) :
    Turns playback.ended.length playback (playback.handleEnded draws) := by
  have whole : ∀ (ended : List (Request × Except FetchFailure Data)) (playback : Playback),
      Turns ended.length { playback with ended } (ended.foldl (fun playback entry =>
        playback.settle draws (playback.pipeline.complete (.ofNanos playback.now) entry.1 entry.2))
        { playback with ended := [] }) := by
    intro ended
    induction ended with
    | nil => exact fun _ => .refl
    | cons entry ended ih =>
      intro playback
      exact .head (@Turn.handle _ draws [] ended entry.1 entry.2 (.ofNanos playback.now) rfl)
        (ih ({ playback with ended := [] }.settle draws
          (playback.pipeline.complete (.ofNanos playback.now) entry.1 entry.2)))
  exact whole playback.ended playback

/-- The waits that are over at one time are over one after another. -/
theorem turns_wake (now : Nat) (woken others : List Timer) (playback : Playback)
    (place : playback.timers = woken ++ others) (some : woken ≠ []) :
    Turns woken.length playback { playback with
      now, ready := playback.ready ++ woken.map Timer.task, timers := others } := by
  induction woken generalizing playback with
  | nil => exact absurd rfl some
  | cons timer woken ih =>
    refine .head (@Turn.wake _ [] (woken ++ others) timer now place) ?_
    cases woken with
    | nil => exact .refl
    | cons next woken =>
      have rest := ih { playback with
        now, ready := playback.ready ++ [timer.task], timers := next :: woken ++ others } rfl nofun
      simpa using rest

/-- What the clock lets happen next is one turn or more. -/
theorem exists_turns_of_step? (step : playback.step? clock draws = some next) :
    ∃ turns, Turns (turns + 1) playback next := by
  unfold step? at step
  split at step
  next task ready place =>
    cases step
    exact ⟨0, .head (@Turn.go _ clock draws [] ready task place) .refl⟩
  next resting =>
    split at step
    next entry ended place =>
      cases step
      have turns := playback.turns_handleEnded draws
      rw [place, List.length_cons] at turns
      exact ⟨_, turns⟩
    next =>
      split at step
      next => cases step
      next timer timers place =>
        cases step
        have first : playback.timers.takeWhile (·.due = timer.due) =
            timer :: timers.takeWhile (·.due = timer.due) := by
          rw [place, List.takeWhile_cons_of_pos (by simp)]
        have turns := turns_wake timer.due (playback.timers.takeWhile (·.due = timer.due))
          (playback.timers.dropWhile (·.due = timer.due)) playback
          List.takeWhile_append_dropWhile.symm (by simp [first])
        have count : (playback.timers.takeWhile (·.due = timer.due)).length =
            (timers.takeWhile (·.due = timer.due)).length + 1 := congrArg List.length first
        rw [resting, List.nil_append, count] at turns
        exact ⟨_, turns⟩

theorem step?_eq_none_iff : playback.step? clock draws = none ↔
    playback.ready = [] ∧ playback.ended = [] ∧ playback.timers = [] := by
  unfold step?
  split
  next place => simp [place]
  next resting =>
    split
    next place => simp [place]
    next waiting => split <;> simp_all

theorem Turn.step?_ne_none (turn : Turn playback next) : playback.step? clock draws ≠ none := by
  rw [Ne, step?_eq_none_iff]
  rintro ⟨ready, ended, timers⟩
  cases turn with
  | go _ _ place => simp [ready] at place
  | wake now place => simp [timers] at place
  | handle _ elapsed place => simp [ended] at place

/-- If there is a bound on the turns, a playback with as much fuel runs until nothing can happen. -/
theorem Played.runFor {pipeline : Pipeline} {face : MemoryFace} {bound : Nat}
    (bounded : ∀ turns last, Played pipeline face turns last → turns ≤ bound)
    {draws : Nat → FetchId → UInt32} {turns fuel : Nat}
    (played : Played pipeline face turns playback) (enough : bound ≤ turns + fuel) :
    ∃ more, Played pipeline face more (playback.runFor clock draws fuel) ∧
      ∀ next, ¬ Turn (playback.runFor clock draws fuel) next := by
  induction fuel generalizing turns playback with
  | zero =>
    refine ⟨turns, played, fun next turn => ?_⟩
    have within := bounded _ _ (played.turn turn)
    omega
  | succ fuel ih =>
    rw [Playback.runFor]
    cases step : playback.step? clock (draws (fuel + 1)) with
    | none => exact ⟨turns, played, fun next turn => turn.step?_ne_none step⟩
    | some next =>
      obtain ⟨more, onward⟩ := exists_turns_of_step? step
      exact ih (played.turns onward) (by omega)

/-- A playback by the clock is a playback in some order, and nothing can happen after it. -/
theorem played_run {pipeline : Pipeline} {face : MemoryFace} {bound : Nat}
    {draws : Nat → FetchId → UInt32}
    (bounded : ∀ turns last, Played pipeline face turns last → turns ≤ bound)
    (enough : bound ≤ (settle (draws 0) { pipeline, face } pipeline.start).stepBound) :
    ∃ turns, Played pipeline face turns (run clock draws pipeline face) ∧
      ∀ next, ¬ Turn (run clock draws pipeline face) next :=
  (Played.start (draws 0)).runFor bounded (by omega)

end Playback

end SegmentRetrieval
