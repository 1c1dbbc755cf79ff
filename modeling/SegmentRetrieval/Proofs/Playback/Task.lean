import SegmentRetrieval.Playback
import SegmentRetrieval.Proofs.Fetch.Answer
import SegmentRetrieval.Proofs.Playback.Face

/-! # The turn of a task

At its turn a task expresses its Interest, meets the face, or is told that a lifetime is over; then it
waits again, or its fetch ends (`Task.act`).  A turn touches what the face has for the name of the task
and for no other.  A task whose name has packets and only faults that its limit bears never fails: it
survives each fault at the price of one Interest, and ends with the packet (`Task.Accounts.acts`).
-/

namespace SegmentRetrieval

/-! ## Transient faults -/

/-- The faults are transient and, of each kind, no more than a bounded limit allows. -/
structure RetryLimit.Bears (limit : RetryLimit) (faults : List InterestError) : Prop where
  transient : ∀ fault ∈ faults, fault.isTransient = true
  timeouts : ∀ max, limit = .bounded max → faults.count .timeout ≤ max
  nacks : ∀ max, limit = .bounded max → faults.countP InterestError.isNack ≤ max

/-! ## Turns -/

/-- What becomes of a task at its turn: it goes on as another one, or its fetch ends. -/
inductive Fate where
  | waits (task : Task)
  | ends (result : Except FetchFailure Data)

/-- What a task in this phase may cost until the next fault of its name is played back or its fetch has
ended; its turns cost something, and so do its waits. -/
def Phase.cost : Phase → Nat
  | .expressing => 4
  | .meeting => 2
  | .expiring => 6

namespace Fate

def tasks : Fate → List Task
  | .waits task => [task]
  | .ends _ => []

def results : Fate → List (Except FetchFailure Data)
  | .waits _ => []
  | .ends result => [result]

/-- A task that goes on may have to wait, and an ended fetch has to be handled. -/
def cost : Fate → Nat
  | .waits task => task.phase.cost + 1
  | .ends _ => 1

end Fate

namespace Task

/-- The name that the task asks for. -/
def name (task : Task) : Name :=
  task.fetch.interest.name

/-- What becomes of a task that is told the outcome of its Interest; `draw` is the nonce drawn for a next
one. -/
def told (task : Task) (draw : UInt32) (outcome : Outcome) : Fate :=
  match task.fetch.answer draw outcome with
  | .finished result => .ends result
  | .again _ fetch => .waits { task with fetch, phase := .expressing }

/-- What becomes of a task at its turn, and what it does to the face. -/
def act (task : Task) (draw : UInt32) (face : MemoryFace) : Fate × MemoryFace :=
  match task.phase with
  | .expressing => (.waits { task with phase := .meeting }, face.record task.fetch.interest)
  | .meeting =>
    let (outcome, face) := face.answer task.fetch.interest.name
    match outcome with
    | .error .timeout => (.waits { task with phase := .expiring }, face)
    | outcome => (task.told draw outcome, face)
  | .expiring => (task.told draw (.error .timeout), face)

variable {task : Task} {draw : UInt32} {face : MemoryFace}

/-- The task is the other one at a later point of the same fetch. -/
structure Continues (task next : Task) : Prop where
  request : next.request = task.request
  fetch : task.fetch.Continues next.fetch

/-- An outcome ends the fetch of a task, or the task expresses its Interest again after a transient
fault. -/
theorem told_cases (task : Task) (draw : UInt32) (outcome : Outcome) :
    (∃ data, outcome = .ok data ∧ task.told draw outcome = .ends (.ok data)) ∨
      (∃ failure, task.told draw outcome = .ends (.error failure)) ∨
      ∃ fault next, outcome = .error fault ∧ fault.isTransient = true ∧
        task.told draw outcome = .waits next ∧ task.Continues next ∧ next.phase = .expressing := by
  unfold told
  rcases task.fetch.answer_cases draw outcome with
    ⟨data, rfl, same⟩ | ⟨failure, same⟩ | ⟨fault, wait, next, rfl, transient, same, continues⟩
  · exact .inl ⟨data, rfl, by rw [same]⟩
  · exact .inr (.inl ⟨failure, by rw [same]⟩)
  · exact .inr (.inr ⟨fault, { task with fetch := next, phase := .expressing }, rfl, transient,
      by rw [same], ⟨rfl, continues⟩, rfl⟩)

theorem told_timeout (allowed : task.fetch.limit.allows (task.fetch.timeouts + 1).toNat = true) :
    ∃ fetch, task.told draw (.error .timeout) = .waits { task with fetch, phase := .expressing } ∧
      task.fetch.Continues fetch ∧ fetch.timeouts = task.fetch.timeouts + 1 ∧
        fetch.nacks = task.fetch.nacks := by
  obtain ⟨wait, fetch, same, after⟩ :=
    @Fetch.answer_timeout _ draw allowed
  exact ⟨fetch, by rw [told, same], after⟩

theorem told_nack {reason : NackReason} (transient : (InterestError.nack reason).isTransient = true)
    (allowed : task.fetch.limit.allows (task.fetch.nacks + 1).toNat = true) :
    ∃ fetch, task.told draw (.error (.nack reason)) = .waits { task with fetch, phase := .expressing } ∧
      task.fetch.Continues fetch ∧ fetch.timeouts = task.fetch.timeouts ∧
        fetch.nacks = task.fetch.nacks + 1 := by
  obtain ⟨wait, fetch, same, after⟩ :=
    @Fetch.answer_nack _ draw _ transient allowed
  exact ⟨fetch, by rw [told, same], after⟩

/-- What a task does at its turn. -/
inductive Acts (task : Task) (draw : UInt32) (face : MemoryFace) : Fate → MemoryFace → Prop where
  | expresses (phase : task.phase = .expressing) :
      Acts task draw face (.waits { task with phase := .meeting }) (face.record task.fetch.interest)
  | silent {rest : List InterestError} (phase : task.phase = .meeting)
      (playing : face.faultsOf task.name = .timeout :: rest) :
      Acts task draw face (.waits { task with phase := .expiring })
        { face with faults := face.faults.insert task.name rest }
  | refused {reason : NackReason} {rest : List InterestError} (phase : task.phase = .meeting)
      (playing : face.faultsOf task.name = .nack reason :: rest) :
      Acts task draw face (task.told draw (.error (.nack reason)))
        { face with faults := face.faults.insert task.name rest }
  | unknown (phase : task.phase = .meeting) (clear : face.faultsOf task.name = [])
      (none : face.packets.get? task.name = none) :
      Acts task draw face (task.told draw (.error (.nack .noRoute))) face
  | answered {data : Data} (phase : task.phase = .meeting) (clear : face.faultsOf task.name = [])
      (found : face.packets.get? task.name = some data) :
      Acts task draw face (.ends (.ok data)) face
  | expires (phase : task.phase = .expiring) : Acts task draw face (task.told draw (.error .timeout)) face

theorem acts (task : Task) (draw : UInt32) (face : MemoryFace) :
    task.Acts draw face (task.act draw face).1 (task.act draw face).2 := by
  unfold act
  split
  next phase => exact .expresses phase
  next phase =>
    cases playing : face.faultsOf task.name with
    | cons fault rest =>
      have answer : face.answer task.fetch.interest.name = _ := MemoryFace.answer_of_fault playing
      rw [answer]
      cases fault with
      | timeout => exact .silent phase playing
      | nack reason => exact .refused phase playing
    | nil =>
      cases found : face.packets.get? task.name with
      | some data =>
        have answer : face.answer task.fetch.interest.name = _ :=
          MemoryFace.answer_of_packet playing found
        rw [answer]
        exact .answered phase playing found
      | none =>
        have answer : face.answer task.fetch.interest.name = _ :=
          MemoryFace.answer_of_unknown playing found
        rw [answer]
        exact .unknown phase playing found
  next phase => exact .expires phase

section acts

variable {fate : Fate} {after : MemoryFace} (acts : task.Acts draw face fate after)
include acts

/-- A fetch that goes on is the same one. -/
theorem Acts.continues : ∀ next ∈ fate.tasks, task.Continues next := by
  have told : ∀ {outcome}, ∀ next ∈ (task.told draw outcome).tasks, task.Continues next := by
    intro outcome next member
    rcases task.told_cases draw outcome with ⟨_, _, same⟩ | ⟨_, same⟩ | ⟨_, later, _, _, same, goes, _⟩
    · rw [same] at member
      cases member
    · rw [same] at member
      cases member
    · rw [same] at member
      cases List.mem_singleton.mp member
      exact goes
  cases acts with
  | expresses => exact fun next member => List.mem_singleton.mp member ▸ ⟨rfl, rfl, rfl⟩
  | silent => exact fun next member => List.mem_singleton.mp member ▸ ⟨rfl, rfl, rfl⟩
  | refused => exact told
  | unknown => exact told
  | answered => nofun
  | expires => exact told

/-- Only what the face has for the name of the task changes. -/
theorem Acts.faultsOf_of_ne {other : Name} (differ : other ≠ task.name) :
    after.faultsOf other = face.faultsOf other := by
  cases acts with
  | expresses => rfl
  | silent => rw [MemoryFace.faultsOf_insert, if_neg differ]
  | refused => rw [MemoryFace.faultsOf_insert, if_neg differ]
  | unknown => rfl
  | answered => rfl
  | expires => rfl

theorem Acts.timesExpressed_of_ne {other : Name} (differ : other ≠ task.name) :
    after.timesExpressed other = face.timesExpressed other := by
  cases acts with
  | expresses =>
    rw [MemoryFace.timesExpressed_record, if_neg (show task.fetch.interest.name ≠ other from
      differ.symm), Nat.add_zero]
  | silent => rfl
  | refused => rfl
  | unknown => rfl
  | answered => rfl
  | expires => rfl

theorem Acts.packets : after.packets = face.packets := by
  cases acts <;> rfl

/-- A fetch brings no packet but the one that the face keeps under the name. -/
theorem Acts.get?_of_ends {data : Data} (ends : fate = .ends (.ok data)) :
    face.packets.get? task.name = some data := by
  have failed : ∀ {fault}, task.told draw (.error fault) ≠ .ends (.ok data) := by
    intro fault same
    rcases task.told_cases draw (.error fault) with ⟨_, ok, _⟩ | ⟨_, other⟩ | ⟨_, _, _, _, other, _⟩
    · cases ok
    · cases other.symm.trans same
    · cases other.symm.trans same
  cases acts with
  | expresses => cases ends
  | silent => cases ends
  | refused => exact absurd ends failed
  | unknown => exact absurd ends failed
  | answered _ _ found =>
    cases ends
    exact found
  | expires => exact absurd ends failed

end acts

/-! ## The cost of a task -/

theorem cost_told_le (task : Task) (draw : UInt32) (outcome : Outcome) :
    (task.told draw outcome).cost ≤ 5 := by
  rcases task.told_cases draw outcome with ⟨_, _, same⟩ | ⟨_, same⟩ | ⟨_, next, _, _, same, _, phase⟩
  · simp [same, Fate.cost]
  · simp [same, Fate.cost]
  · simp [same, Fate.cost, phase, Phase.cost]

theorem cost_told_noRoute (task : Task) (draw : UInt32) :
    (task.told draw (.error (.nack .noRoute))).cost = 1 := by
  rcases task.told_cases draw (.error (.nack .noRoute)) with ⟨_, ok, _⟩ | ⟨_, same⟩ |
    ⟨_, _, fault, transient, _⟩
  · cases ok
  · rw [same]
    rfl
  · cases fault
    cases transient

/-- Each turn costs something, and a fault played back pays for the Interest that follows it. -/
theorem Acts.cost_lt {fate : Fate} {after : MemoryFace} (acts : task.Acts draw face fate after) :
    fate.cost + 6 * MemoryFace.countFaults after.faults <
      task.phase.cost + 6 * MemoryFace.countFaults face.faults := by
  cases acts with
  | expresses phase =>
    rw [phase]
    exact Nat.add_lt_add_right (Nat.lt_succ_self 3) _
  | silent phase playing =>
    have fewer := MemoryFace.countFaults_insert_lt playing
    simp only [phase, Fate.cost, Phase.cost]
    omega
  | @refused reason _ phase playing =>
    have fewer := MemoryFace.countFaults_insert_lt playing
    have bound := task.cost_told_le draw (.error (.nack reason))
    simp only [phase, Phase.cost]
    omega
  | unknown phase =>
    rw [phase, task.cost_told_noRoute draw]
    exact Nat.add_lt_add_right (by decide) _
  | answered phase =>
    rw [phase]
    exact Nat.add_lt_add_right (Nat.lt_succ_self 1) _
  | expires phase =>
    have bound := task.cost_told_le draw (.error .timeout)
    simp only [phase, Phase.cost]
    omega

/-- What tasks cost together. -/
def totalCost : List Task → Nat
  | [] => 0
  | task :: tasks => task.phase.cost + totalCost tasks

theorem totalCost_append (tasks others : List Task) :
    totalCost (tasks ++ others) = totalCost tasks + totalCost others := by
  induction tasks with
  | nil => exact (Nat.zero_add _).symm
  | cons task tasks ih => rw [List.cons_append, totalCost, totalCost, ih, Nat.add_assoc]

theorem totalCost_eq_of_perm {tasks others : List Task} (same : tasks.Perm others) :
    totalCost tasks = totalCost others := by
  induction same with
  | nil => rfl
  | cons task _ ih => rw [totalCost, totalCost, ih]
  | swap => exact Nat.add_left_comm ..
  | trans _ _ ih others => exact ih.trans others

theorem totalCost_le_of_sublist {tasks others : List Task} (part : tasks.Sublist others) :
    totalCost tasks ≤ totalCost others := by
  induction part with
  | slnil => exact Nat.le_refl 0
  | cons _ _ ih => exact Nat.le_add_left_of_le ih
  | cons_cons _ _ ih => exact Nat.add_le_add_left ih _

/-! ## Faults that the limit bears -/

/-- How a live fetch stands with the faults injected for its name: those played back so far are what it
has counted in its 32 bits, and each of them has cost one Interest. -/
structure Accounts (task : Task) (face : MemoryFace) (injected played : List InterestError) :
    Prop where
  left : injected = played ++ face.faultsOf task.name
  timeouts : UInt32.ofNat (played.count .timeout) =
    task.fetch.timeouts + if task.phase = .expiring then 1 else 0
  nacks : UInt32.ofNat (played.countP InterestError.isNack) = task.fetch.nacks
  expressed : face.timesExpressed task.name =
    played.length + if task.phase = .meeting then 1 else 0

/-- As long as its limit bears the faults of its name, a fetch goes on until it brings the packet, and
then one Interest and one more for each fault has been expressed. -/
theorem Accounts.acts {injected played : List InterestError}
    (accounts : task.Accounts face injected played) (bears : task.fetch.limit.Bears injected)
    {packet : Data} (found : face.packets.get? task.name = some packet) {fate : Fate}
    {after : MemoryFace} (acts : task.Acts draw face fate after) :
    (∃ next played, fate = .waits next ∧ next.Accounts after injected played) ∨
      fate = .ends (.ok packet) ∧ after.timesExpressed task.name = injected.length + 1 := by
  obtain ⟨left, timeouts, nacks, expressed⟩ := accounts
  have timeoutsLeft := congrArg (List.count InterestError.timeout) left
  have nacksLeft := congrArg (List.countP InterestError.isNack) left
  rw [List.count_append] at timeoutsLeft
  rw [List.countP_append] at nacksLeft
  cases acts with
  | expresses phase =>
    refine .inl ⟨_, played, rfl, left, timeouts.trans (by simp [phase]), nacks, ?_⟩
    rw [MemoryFace.timesExpressed_record]
    change face.timesExpressed task.name + (if task.name = task.name then 1 else 0) = _
    rw [expressed]
    simp [phase]
  | @silent rest phase playing =>
    have same : injected = (played ++ [.timeout]) ++ rest := by
      rw [left, playing, List.append_assoc, List.singleton_append]
    refine .inl ⟨_, played ++ [.timeout], rfl, same.trans ?_, ?_, ?_, ?_⟩
    · rw [MemoryFace.faultsOf_insert]
      exact congrArg _ (if_pos rfl).symm
    · rw [List.count_append, UInt32.ofNat_add, timeouts]
      simp [phase]
    · rw [List.countP_append, UInt32.ofNat_add, nacks]
      simp [InterestError.isNack]
    · exact expressed.trans (by simp [phase])
  | @refused reason rest phase playing =>
    have among : .nack reason ∈ injected := by
      rw [left, playing]
      exact List.mem_append_right _ List.mem_cons_self
    have allowed : task.fetch.limit.allows (task.fetch.nacks + 1).toNat = true := by
      have borne : played.countP InterestError.isNack + 1 ≤
          injected.countP InterestError.isNack := by
        rw [nacksLeft, playing, List.countP_cons_of_pos rfl]
        omega
      rw [← nacks]
      exact RetryLimit.allows_ofNat_succ fun max bounded =>
        Nat.le_trans borne (bears.nacks max bounded)
    obtain ⟨fetch, same, continues, counted, grown⟩ :=
      told_nack (bears.transient _ among) allowed
    have name : ({ task with fetch, phase := .expressing } : Task).name = task.name := continues.name
    refine .inl ⟨_, played ++ [.nack reason], same, ?_, ?_, ?_, ?_⟩
    · rw [name, MemoryFace.faultsOf_insert, if_pos rfl, left, playing, List.append_assoc,
        List.singleton_append]
    · rw [List.count_append, UInt32.ofNat_add, timeouts]
      simp [phase, counted]
    · rw [List.countP_append, UInt32.ofNat_add, nacks]
      simp [InterestError.isNack, grown]
    · rw [name]
      exact expressed.trans (by simp [phase])
  | unknown _ _ none =>
    rw [found] at none
    cases none
  | @answered data phase clear here =>
    rw [found] at here
    cases here
    refine .inr ⟨rfl, ?_⟩
    rw [expressed, left, clear, List.append_nil, if_pos phase]
  | expires phase =>
    rw [if_pos phase] at timeouts
    have allowed : task.fetch.limit.allows (task.fetch.timeouts + 1).toNat = true := by
      have borne : played.count .timeout ≤ injected.count .timeout := by omega
      rw [← timeouts]
      exact RetryLimit.allows_ofNat fun max bounded => Nat.le_trans borne (bears.timeouts max bounded)
    obtain ⟨fetch, same, continues, counted, grown⟩ := told_timeout allowed
    have name : ({ task with fetch, phase := .expressing } : Task).name = task.name := continues.name
    refine .inl ⟨_, played, same, by rw [name, left], ?_, nacks.trans grown.symm, ?_⟩
    · rw [timeouts]
      simp [counted]
    · rw [name]
      exact expressed.trans (by simp [phase])

end Task

end SegmentRetrieval
