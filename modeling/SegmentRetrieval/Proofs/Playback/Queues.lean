import SegmentRetrieval.Proofs.Playback.Face

/-! # A queue for each name

However packets, faults and Interests follow one another at a face, it treats each name as if it had a
face of its own.  What there is for a name is a `Queue`: the faults to play back and the packet that
was inserted last.  An operation is answered from the queue of its name (`fst_perform`) and moves on
that queue only (`queue_perform_self`, `queue_perform_of_ne`), so a run of operations is, name by name,
a run of the queues.  The time of a reply is what the clock makes of the delay and the lifetime.
-/

namespace SegmentRetrieval

/-- Names agree exactly where the types and the values of their components do. -/
theorem Name.eq_iff_types_values {name other : Name} :
    name = other ↔ name.components.map (fun component => (component.type, component.value)) =
      other.components.map fun component => (component.type, component.value) := by
  obtain ⟨components⟩ := name
  obtain ⟨others⟩ := other
  rw [Name.mk.injEq, List.map_inj_right]
  rintro ⟨type, value⟩ ⟨otherType, otherValue⟩ same
  rw [Component.mk.injEq]
  exact Prod.mk.inj same

namespace MemoryFace

/-- Something that is done to a face. -/
inductive Operation where
  | insert (data : Data)
  | inject (name : Name) (fault : InterestError)
  | express (interest : Interest)

namespace Operation

/-- The name that an operation is about. -/
def name : Operation → Name
  | insert data => data.name
  | inject name _ => name
  | express interest => interest.name

def inserted? : Operation → Option Data
  | insert data => some data
  | _ => none

def injected? : Operation → Option InterestError
  | inject _ fault => some fault
  | _ => none

def expressed? : Operation → Option Interest
  | express interest => some interest
  | _ => none

end Operation

/-- How an Interest ends, the nanoseconds that it took, and the fault that was played back for it. -/
structure Reply where
  outcome : Outcome
  took : Nat
  fault : Option InterestError

/-- The operations that were done, each with the reply to it.  Only an Interest has one. -/
abbrev Log := List (Operation × Option Reply)

/-- The reply to an operation, and the face after it. -/
def perform (clock : Clock) (face : MemoryFace) : Operation → Option Reply × MemoryFace
  | .insert data => (none, face.insert data)
  | .inject name fault => (none, face.inject name fault)
  | .express interest =>
    let (outcome, took, next) := face.express clock interest
    (some { outcome, took, fault := (face.faultsOf interest.name).head? }, next)

/-- Does the operations one after another. -/
def performAll (clock : Clock) (face : MemoryFace) : List Operation → Log × MemoryFace
  | [] => ([], face)
  | operation :: operations =>
    let (reply, next) := face.perform clock operation
    let (log, last) := next.performAll clock operations
    ((operation, reply) :: log, last)

/-- The operations on a name. -/
def on (name : Name) (operations : List Operation) : List Operation :=
  operations.filter fun operation => operation.name = name

/-- The entries of a log that are about a name. -/
def Log.on (name : Name) (log : Log) : Log :=
  log.filter fun entry => entry.1.name = name

/-- The faults that were played back, in order. -/
def Log.played (log : Log) : List InterestError :=
  log.filterMap fun entry => entry.2.bind Reply.fault

/-! ## The queue of one name -/

/-- The faults to play back, the oldest first, and the packet that was inserted last. -/
structure Queue where
  faults : List InterestError
  packet : Option Data

namespace Queue

/-- How the next Interest ends. -/
def outcome (queue : Queue) : Outcome :=
  match queue.faults with
  | fault :: _ => .error fault
  | [] =>
    match queue.packet with
    | some data => .ok data
    | none => .error (.nack .noRoute)

/-- The time that an Interest takes, where each answer takes the delay. -/
def took (queue : Queue) (delay lifetime : Nat) : Nat :=
  delay + if queue.faults.head? = some .timeout then lifetime else 0

/-- The reply to an operation by a clock. -/
def reply (clock : Clock) (delay : Duration) (queue : Queue) : Operation → Option Reply
  | .express interest => some {
      outcome := queue.outcome
      took := queue.took (clock.wait delay) (clock.sleep interest.lifetime)
      fault := queue.faults.head? }
  | _ => none

/-- What an operation leaves. -/
def after (queue : Queue) : Operation → Queue
  | .insert data => { queue with packet := some data }
  | .inject _ fault => { queue with faults := queue.faults ++ [fault] }
  | .express _ => { queue with faults := queue.faults.tail }

/-- The operations with the replies to them. -/
def log (clock : Clock) (delay : Duration) (queue : Queue) : List Operation → Log
  | [] => []
  | operation :: operations =>
    (operation, queue.reply clock delay operation) ::
      (queue.after operation).log clock delay operations

variable (clock : Clock) (delay : Duration)

/-- The faults that wait are played back or go on waiting, and the oldest is first. -/
theorem faults_after (queue : Queue) (operation : Operation) :
    queue.faults ++ [operation].filterMap Operation.injected? =
      Log.played [(operation, queue.reply clock delay operation)] ++ (queue.after operation).faults := by
  cases operation with
  | insert data => exact List.append_nil _
  | inject name fault => rfl
  | express interest =>
    cases waiting : queue.faults <;>
      simp [Log.played, reply, after, waiting, Operation.injected?]

/-- Faults come and go in one order, so each is played back at most once. -/
theorem faults_foldl_after (queue : Queue) (operations : List Operation) :
    queue.faults ++ operations.filterMap Operation.injected? =
      (queue.log clock delay operations).played ++ (operations.foldl after queue).faults := by
  induction operations generalizing queue with
  | nil => exact List.append_nil _
  | cons operation operations ih =>
    calc queue.faults ++ ([operation] ++ operations).filterMap Operation.injected?
        = Log.played [(operation, queue.reply clock delay operation)] ++
            ((queue.after operation).faults ++ operations.filterMap Operation.injected?) := by
          rw [List.filterMap_append, ← List.append_assoc, faults_after clock delay queue, List.append_assoc]
      _ = (Log.played [(operation, queue.reply clock delay operation)] ++
            ((queue.after operation).log clock delay operations).played) ++
              (operations.foldl after (queue.after operation)).faults := by
          rw [ih, List.append_assoc]
      _ = (queue.log clock delay (operation :: operations)).played ++
            ((operation :: operations).foldl after queue).faults := by
          rw [Log.played, Log.played, ← List.filterMap_append]
          rfl

theorem packet_foldl_after (queue : Queue) (operations : List Operation) :
    (operations.foldl after queue).packet =
      (operations.filterMap Operation.inserted?).getLast?.or queue.packet := by
  induction operations generalizing queue with
  | nil => rfl
  | cons operation operations ih =>
    rw [List.foldl_cons, ih, List.filterMap_cons]
    cases operation with
    | insert data =>
      rw [Operation.inserted?, List.getLast?_cons]
      cases (operations.filterMap Operation.inserted?).getLast? <;> rfl
    | inject name fault => rfl
    | express interest => rfl

/-- Besides the delay only a timeout takes time. -/
theorem took_eq (queue : Queue) (interest : Interest) :
    queue.took (clock.wait delay) (clock.sleep interest.lifetime) =
      clock.wait delay + extraWait clock interest queue.outcome := by
  unfold took outcome
  cases queue.faults with
  | nil => cases queue.packet <;> rfl
  | cons fault rest => cases fault <;> rfl

end Queue

/-! ## A face and its queues -/

variable {clock : Clock} {name : Name}

/-- What there is for a name. -/
def queue (face : MemoryFace) (name : Name) : Queue :=
  ⟨face.faultsOf name, face.packets.get? name⟩

/-- The next Interest for a name ends as its queue says, and takes from the faults of that name only. -/
theorem answer_eq_queue (face : MemoryFace) (name : Name) :
    ∃ faults, face.answer name = ((face.queue name).outcome, { face with faults }) ∧
      ∀ other, ({ face with faults } : MemoryFace).faultsOf other =
        if other = name then (face.faultsOf name).tail else face.faultsOf other := by
  cases playing : face.faultsOf name with
  | cons fault rest =>
    refine ⟨face.faults.insert name rest, ?_, fun other => faultsOf_insert rest⟩
    rw [answer_of_fault playing, queue, playing]
    rfl
  | nil =>
    refine ⟨face.faults, ?_, fun other => ?_⟩
    · cases found : face.packets.get? name with
      | some data =>
        rw [answer_of_packet playing found, queue, playing, found]
        rfl
      | none =>
        rw [answer_of_unknown playing found, queue, playing, found]
        rfl
    · split
      next here => rw [here, List.tail_nil, ← playing]
      next => rfl

theorem fst_perform (face : MemoryFace) (operation : Operation) :
    (face.perform clock operation).1 = (face.queue operation.name).reply clock face.delay operation := by
  cases operation with
  | insert data => rfl
  | inject name fault => rfl
  | express interest =>
    obtain ⟨faults, answered, _⟩ := (face.record interest).answer_eq_queue interest.name
    simp only [perform, express, answered, Queue.reply, Operation.name, Queue.took_eq]
    rfl

theorem queue_perform_self (face : MemoryFace) (operation : Operation) :
    (face.perform clock operation).2.queue operation.name = (face.queue operation.name).after operation := by
  cases operation with
  | insert data =>
    simp only [perform, insert, queue, Operation.name, Table.get?_insert, if_true]
    rfl
  | inject name fault =>
    simp only [perform, inject, queue, Operation.name, faultsOf_insert, if_true]
    rfl
  | express interest =>
    obtain ⟨faults, answered, left⟩ := (face.record interest).answer_eq_queue interest.name
    simp only [perform, express, answered, queue, Operation.name, left, if_true]
    rfl

/-- Other names keep their queues. -/
theorem queue_perform_of_ne (face : MemoryFace) {operation : Operation}
    (apart : name ≠ operation.name) : (face.perform clock operation).2.queue name = face.queue name := by
  cases operation with
  | insert data =>
    have apart : name ≠ data.name := apart
    simp only [perform, insert, queue, Table.get?_insert, if_neg apart]
    rfl
  | inject injected fault =>
    have apart : name ≠ injected := apart
    simp only [perform, inject, queue, faultsOf_insert, if_neg apart]
  | express interest =>
    have apart : name ≠ interest.name := apart
    obtain ⟨faults, answered, left⟩ := (face.record interest).answer_eq_queue interest.name
    simp only [perform, express, answered, queue, left, if_neg apart]
    rfl

theorem delay_perform (face : MemoryFace) (operation : Operation) :
    (face.perform clock operation).2.delay = face.delay := by
  cases operation with
  | insert data => rfl
  | inject name fault => rfl
  | express interest =>
    obtain ⟨faults, answered, _⟩ := (face.record interest).answer_eq_queue interest.name
    simp only [perform, express, answered]
    rfl

theorem expressed_perform (face : MemoryFace) (operation : Operation) :
    (face.perform clock operation).2.expressed =
      face.expressed ++ [operation].filterMap Operation.expressed? := by
  cases operation with
  | insert data => exact (List.append_nil _).symm
  | inject name fault => exact (List.append_nil _).symm
  | express interest =>
    obtain ⟨faults, answered, _⟩ := (face.record interest).answer_eq_queue interest.name
    simp only [perform, express, answered]
    rfl

/-! ## Any operations -/

theorem on_cons_of_eq {operation : Operation} (here : operation.name = name)
    (operations : List Operation) :
    on name (operation :: operations) = operation :: on name operations :=
  List.filter_cons_of_pos (by simpa using here)

theorem on_cons_of_ne {operation : Operation} (apart : operation.name ≠ name)
    (operations : List Operation) : on name (operation :: operations) = on name operations :=
  List.filter_cons_of_neg (by simpa using apart)

theorem delay_performAll (face : MemoryFace) (operations : List Operation) :
    (face.performAll clock operations).2.delay = face.delay := by
  induction operations generalizing face with
  | nil => rfl
  | cons operation operations ih => exact (ih _).trans (delay_perform face operation)

theorem expressed_performAll (face : MemoryFace) (operations : List Operation) :
    (face.performAll clock operations).2.expressed =
      face.expressed ++ operations.filterMap Operation.expressed? := by
  induction operations generalizing face with
  | nil => exact (List.append_nil _).symm
  | cons operation operations ih =>
    rw [performAll, ih, expressed_perform, List.append_assoc, ← List.filterMap_append]
    rfl

theorem queue_performAll (face : MemoryFace) (name : Name) (operations : List Operation) :
    (face.performAll clock operations).2.queue name =
      (on name operations).foldl Queue.after (face.queue name) := by
  induction operations generalizing face with
  | nil => rfl
  | cons operation operations ih =>
    rw [performAll, ih]
    by_cases here : operation.name = name
    · rw [on_cons_of_eq here, List.foldl_cons, ← here, queue_perform_self]
    · rw [on_cons_of_ne here, queue_perform_of_ne face (Ne.symm here)]

/-- What is said about a name is what its queue says alone. -/
theorem on_performAll (face : MemoryFace) (name : Name) (operations : List Operation) :
    (face.performAll clock operations).1.on name =
      (face.queue name).log clock face.delay (on name operations) := by
  induction operations generalizing face with
  | nil => rfl
  | cons operation operations ih =>
    -- the other replies come from the queue that the first operation leaves
    have later := ih (face.perform clock operation).2
    rw [delay_perform, Log.on] at later
    by_cases here : operation.name = name
    · rw [← here, queue_perform_self] at later
      rw [on_cons_of_eq here, performAll, Log.on, List.filter_cons_of_pos (by simpa using here),
        ← here, later, fst_perform]
      rfl
    · rw [queue_perform_of_ne face (Ne.symm here)] at later
      rw [on_cons_of_ne here, performAll, Log.on, List.filter_cons_of_neg (by simpa using here),
        later]

theorem map_fst_performAll (face : MemoryFace) (operations : List Operation) :
    (face.performAll clock operations).1.map Prod.fst = operations := by
  induction operations generalizing face with
  | nil => rfl
  | cons operation operations ih => exact congrArg _ (ih _)

/-- Operations on other names make no difference. -/
theorem on_performAll_eq (face : MemoryFace) (name : Name) (operations : List Operation) :
    (face.performAll clock operations).1.on name = (face.performAll clock (on name operations)).1 := by
  -- nothing in a log of operations on the name is about another one
  have alone : (face.performAll clock (on name operations)).1.on name =
      (face.performAll clock (on name operations)).1 := by
    refine List.filter_eq_self.mpr fun entry member => ?_
    have done : entry.1 ∈ on name operations := by
      rw [← map_fst_performAll face (on name operations)]
      exact List.mem_map_of_mem member
    exact (List.mem_filter.mp done).2
  have twice : on name (on name operations) = on name operations := by
    simp only [on, List.filter_filter, Bool.and_self]
  rw [← alone, on_performAll, on_performAll, twice]

/-- After any operations, what there is for a name are the faults that were injected for it and have
not been played back, and the packet that was inserted last under it.  An Interest is answered with the
oldest fault, else with the packet, else with a refusal.  On a clock that keeps them, it takes the delay
of the face, and its own lifetime if the fault is a timeout.  Each fault is played back at most once.
What is said about a name is the same without the operations on other names, and every Interest is noted
in order. -/
theorem names_are_queues (clock : Clock) (face : MemoryFace) (earlier : List Operation) :
    let log := (face.performAll clock earlier).1
    let now := (face.performAll clock earlier).2
    (∀ name, ∃ queue : Queue,
      face.faultsOf name ++ (on name earlier).filterMap Operation.injected? =
        (log.on name).played ++ queue.faults ∧
      queue.packet = ((on name earlier).filterMap Operation.inserted?).getLast?.or
        (face.packets.get? name) ∧
      ∀ interest : Interest, interest.name = name →
        ∃ took, (now.perform clock (.express interest)).1 =
            some { outcome := queue.outcome, took, fault := queue.faults.head? } ∧
          (clock.Keeps face.delay → clock.Keeps interest.lifetime →
            took = face.delay.toNanos +
              if queue.faults.head? = some .timeout then interest.lifetime.toNanos else 0)) ∧
    (∀ name, log.on name = (face.performAll clock (on name earlier)).1) ∧
    now.expressed = face.expressed ++ earlier.filterMap Operation.expressed? ∧
    ∀ name other : Name, name = other ↔
      name.components.map (fun component => (component.type, component.value)) =
        other.components.map fun component => (component.type, component.value) := by
  intro log now
  have left : ∀ name, now.queue name = (on name earlier).foldl Queue.after (face.queue name) :=
    fun name => queue_performAll face name earlier
  refine ⟨fun name => ⟨now.queue name, ?_, ?_, ?_⟩, fun name => on_performAll_eq face name earlier,
    expressed_performAll face earlier, fun _ _ => Name.eq_iff_types_values⟩
  · rw [on_performAll, left]
    exact (face.queue name).faults_foldl_after clock face.delay _
  · rw [left]
    exact (face.queue name).packet_foldl_after _
  · rintro interest rfl
    refine ⟨_, fst_perform now (.express interest), fun delay lifetime => ?_⟩
    rw [delay_performAll, Clock.wait_of_keeps delay, Queue.took, lifetime]
    rfl

/-- A timeout that waits behind no other fault of its name, while another name has one too: on a clock
that counts milliseconds the Interest takes the five of the delay and the fifty of its lifetime. -/
theorem names_are_queues_timeout :
    let clock := Clock.ticking 1000000
    let face := serving [] (.ofMillis 5)
    let name : Name := ⟨[.generic [97]]⟩
    let other : Name := ⟨[.generic [98]]⟩
    let interest : Interest := { name, lifetime := .ofMillis 50, nonce := 7 }
    let now := (face.performAll clock [.inject other .timeout, .inject name .timeout,
      .express { name := other, nonce := 1 }, .inject name (.nack .congestion)]).2
    (interest.name = name ∧ clock.Keeps face.delay ∧ clock.Keeps interest.lifetime) ∧
      (now.perform clock (.express interest)).1 =
        some { outcome := .error .timeout, took := 55000000, fault := some .timeout } := by
  intro clock face name other interest now
  have delay : clock.Keeps face.delay := by decide
  have lifetime : clock.Keeps interest.lifetime := by decide
  obtain ⟨queues, _⟩ := names_are_queues clock face [.inject other .timeout, .inject name .timeout,
    .express { name := other, nonce := 1 }, .inject name (.nack .congestion)]
  obtain ⟨queue, faults, _, replies⟩ := queues name
  have waiting : queue.faults = [.timeout, .nack .congestion] := faults.symm
  obtain ⟨took, reply, takes⟩ := replies interest rfl
  have outcome : queue.outcome = .error .timeout := by rw [Queue.outcome, waiting]
  have both : face.delay.toNanos + interest.lifetime.toNanos = 55000000 := by decide
  refine ⟨⟨rfl, delay, lifetime⟩, reply.trans ?_⟩
  rw [takes delay lifetime, outcome, waiting, List.head?_cons, if_pos rfl, both]

end MemoryFace

end SegmentRetrieval
