import SegmentRetrieval.Proofs.Retrieval.Ledger
import SegmentRetrieval.Proofs.Retrieval.Run
import SegmentRetrieval.Proofs.Verifier.Log

/-! # What holds while a retrieval runs

`Sound` says where each requested segment is: it was taken in, it is running, it lies past the end,
or, while the end is not known, a failed request stands at or before it.  It also says which slots
may be idle.  Every step that does not stop the retrieval keeps it, through states with a free slot,
so it holds in every state of a run between two messages.
-/

namespace SegmentRetrieval

namespace Retrieval

/-- The packet of a segment was taken in. -/
def Seen (retrieval : Retrieval) (output : Output) (segment : Nat) : Prop :=
  ∃ data, retrieval.verifier.Took output.delivered segment data

/-- The state of a retrieval that goes on, in which one slot may be free. -/
structure Sound (size : Nat) (free : Option Nat) (retrieval : Retrieval) (output : Output) :
    Prop where
  slots : retrieval.window.size = size
  ledger : Ledger retrieval.window output.requests
  accepts : retrieval.verifier.Accepts output.delivered
  events : output.events = output.delivered.map .segment
  bytes : retrieval.bytes = output.delivered.foldl Verified.addBytes 0
  requested : ∀ n, retrieval.Seen output n → n < retrieval.window.nextSegment
  fresh : ∀ i n, retrieval.window.Has .running i n → ¬ retrieval.Seen output n
  running_le : ∀ last, retrieval.window.finalSegment = some last →
    ∀ i n, retrieval.window.Has .running i n → n ≤ last
  seen_le : ∀ last, retrieval.window.finalSegment = some last →
    ∀ n, retrieval.Seen output n → n ≤ last ∨ n < retrieval.verifier.nextSegment
  /-- Where each requested segment is. -/
  accounted : ∀ n < retrieval.window.nextSegment,
    retrieval.Seen output n ∨ (∃ i, retrieval.window.Has .running i n) ∨
      (∃ last, retrieval.window.finalSegment = some last ∧ last < n) ∨
      (retrieval.window.finalSegment = none ∧ ∃ i m, retrieval.window.Has .failed i m ∧ m ≤ n)
  /-- Why a slot is idle. -/
  filled : ∀ i < size, free ≠ some i → (∃ n, retrieval.window.Has .running i n) ∨
    (retrieval.window.finalSegment = none ∧ retrieval.window.hasFailure = true) ∨
    (∃ last, retrieval.window.finalSegment = some last ∧ last < retrieval.window.nextSegment)
  failing : retrieval.window.finalSegment = none → retrieval.window.hasFailure = true →
    ∃ i m, retrieval.window.Has .failed i m
  waiting : free = none → retrieval.window.finalSegment = none →
    retrieval.window.hasFailure = true → ∃ i n, retrieval.window.Has .running i n
  unfinished : free = none → ∀ last, retrieval.window.finalSegment = some last →
    retrieval.verifier.nextSegment ≤ last
  idle : ∀ i, free = some i →
    ∀ n, ¬ retrieval.window.Has .running i n ∧ ¬ retrieval.window.Has .failed i n

namespace Sound

variable {size : Nat} {free : Option Nat} {retrieval : Retrieval} {output : Output}

/-- What was aborted, and the fetches, play no role. -/
theorem transfer (sound : Sound size free retrieval output) {after : Retrieval} {next : Output}
    (window : after.window = retrieval.window) (verifier : after.verifier = retrieval.verifier)
    (bytes : after.bytes = retrieval.bytes) (events : next.events = output.events)
    (requests : next.requests = output.requests) : Sound size free after next := by
  obtain ⟨afterWindow, afterVerifier, _, afterBytes, _, _⟩ := after
  obtain ⟨nextEvents, nextRequests, _⟩ := next
  simp only at window verifier bytes events requests
  subst window verifier bytes events requests
  exact ⟨sound.slots, sound.ledger, sound.accepts, sound.events, sound.bytes, sound.requested,
    sound.fresh, sound.running_le, sound.seen_le, sound.accounted, sound.filled, sound.failing,
    sound.waiting, sound.unfinished, sound.idle⟩

theorem slot_lt (sound : Sound size free retrieval output) {state : SlotState} {i n : Nat}
    (has : retrieval.window.Has state i n) : i < size := by
  obtain ⟨fetchId, place⟩ := has
  exact sound.slots ▸ Window.slot?_lt place

/-- A retrieval that goes on has reported segments only. -/
theorem not_mem_events (sound : Sound size free retrieval output) {event : Event}
    (other : event.verified? = none) : event ∉ output.events := by
  intro member
  rw [sound.events] at member
  obtain ⟨_, _, rfl⟩ := List.mem_map.mp member
  cases other

/-- A retrieval that goes on waits for something. -/
theorem running_pos (sound : Sound size none retrieval output) (nonempty : 0 < size) :
    0 < retrieval.window.running := by
  rw [Window.running_pos_iff]
  rcases sound.filled 0 nonempty nofun with ⟨n, runs⟩ | ⟨unknown, failed⟩ | ⟨last, known, through⟩
  · exact ⟨0, n, runs⟩
  · exact sound.waiting rfl unknown failed
  · -- the segment that is expected next was requested, and is neither accepted nor held
    have unfinished := sound.unfinished rfl last known
    rcases sound.accounted retrieval.verifier.nextSegment (by omega) with ⟨data, took⟩ |
      ⟨i, runs⟩ | ⟨end', known', past⟩ | ⟨unknown, _⟩
    · exact absurd rfl (sound.accepts.ne_nextSegment_of_took took)
    · exact ⟨i, _, runs⟩
    · rw [known, Option.some.injEq] at known'
      omega
    · rw [known] at unknown
      cases unknown

/-! ## The start -/

theorem slot?_opened (size i : Nat) : (opened size size).window.slot? i =
    if i < size then some ⟨i, i, .running⟩ else none := by
  simp only [Window.slot?, Retrieval.opened, Nat.sub_self, List.replicate_zero, List.append_nil,
    List.getElem?_map]
  split
  next inside =>
    rw [List.getElem?_range inside]
    rfl
  next outside =>
    rw [List.getElem?_eq_none (by simpa using outside)]
    rfl

theorem not_seen_opened (size n : Nat) : ¬ (opened size size).Seen
    { requests := (List.range size).map fun i => ⟨i, i, i⟩ } n := by
  rintro ⟨data, ⟨_, found, _⟩ | ⟨_, member, _⟩⟩
  · cases found
  · cases member

theorem opened (size : Nat) : Sound size none (opened size size)
    { requests := (List.range size).map fun i => ⟨i, i, i⟩ } := by
  have runs : ∀ i < size, (Retrieval.opened size size).window.Has .running i i :=
    fun i inside => ⟨i, by rw [slot?_opened, if_pos inside]⟩
  exact
    { slots := by simp [Retrieval.opened, Window.size]
      ledger :=
        { numbers := by
            rw [List.map_map]
            exact List.map_id _
          ids := by simp
          next := rfl
          owned := by
            intro index slot place
            rw [slot?_opened] at place
            split at place
            · cases place
              simpa
            · cases place }
      accepts := Verifier.accepts_nil
      events := rfl
      bytes := rfl
      requested := fun n seen => absurd seen (not_seen_opened size n)
      fresh := fun _ n _ => not_seen_opened size n
      running_le := nofun
      seen_le := nofun
      accounted := fun n inside => .inr (.inl ⟨n, runs n inside⟩)
      filled := fun i inside _ => .inl ⟨i, runs i inside⟩
      failing := nofun
      waiting := nofun
      unfinished := nofun
      idle := nofun }

/-! ## A packet -/

section packet

variable {request : Request} {data : Data}

/-- A packet taken in for a running request adds itself to what was taken in. -/
theorem took_taken (sound : Sound size free retrieval output)
    (runs : retrieval.window.Has .running request.slot request.segment)
    (valid : (retrieval.submitted request data).error = none) (n : Nat) (packet : Data) :
    (retrieval.taken request data).verifier.Took
        (output ++ .ofVerified (retrieval.submitted request data).verified).delivered n packet ↔
      n = request.segment ∧ packet = data ∨
        retrieval.verifier.Took output.delivered n packet := by
  rw [Output.delivered_append, Output.delivered_ofVerified]
  exact sound.accepts.took_submit (fun other took => sound.fresh _ _ runs ⟨other, took⟩) valid n packet

theorem taken (sound : Sound size none retrieval output)
    (runs : retrieval.window.Has .running request.slot request.segment)
    (valid : (retrieval.submitted request data).error = none) :
    Sound size (some request.slot) (retrieval.taken request data)
      (output ++ .ofVerified (retrieval.submitted request data).verified) := by
  have seen : ∀ n, (retrieval.taken request data).Seen
      (output ++ .ofVerified (retrieval.submitted request data).verified) n ↔
        n = request.segment ∨ retrieval.Seen output n := by
    intro n
    simp only [Seen, sound.took_taken runs valid, exists_or, exists_and_left, exists_eq, and_true]
  have running : ∀ i n, (retrieval.taken request data).window.Has .running i n ↔
      i ≠ request.slot ∧ retrieval.window.Has .running i n :=
    fun i n => Window.has_markSucceeded_iff (by decide)
  have failed : ∀ i n, (retrieval.taken request data).window.Has .failed i n ↔
      retrieval.window.Has .failed i n := by
    intro i n
    refine (Window.has_markSucceeded_iff (by decide)).trans (and_iff_right_of_imp ?_)
    rintro has rfl
    cases (has.unique runs).1
  have accepts := sound.accepts.submit request.segment data
  exact
    { slots := (Window.size_markSucceeded ..).trans sound.slots
      ledger := by
        rw [Output.requests_append, Output.requests_ofVerified, List.append_nil]
        exact sound.ledger.of_sameRequests (Window.sameRequests_markSucceeded _ _) rfl rfl
      accepts := by
        rw [Output.delivered_append, Output.delivered_ofVerified]
        exact accepts
      events := by simp [sound.events]
      bytes := by simp [Retrieval.taken, sound.bytes]
      requested := by
        intro n here
        rcases (seen n).mp here with rfl | before
        · exact sound.ledger.has_lt runs
        · exact sound.requested n before
      fresh := by
        intro i n has here
        obtain ⟨elsewhere, has⟩ := (running i n).mp has
        rcases (seen n).mp here with rfl | before
        · -- no other slot runs the segment that was taken in
          exact elsewhere (sound.ledger.index_eq has runs)
        · exact sound.fresh i n has before
      running_le := fun last known i n has =>
        sound.running_le last known i n ((running i n).mp has).2
      seen_le := by
        intro last known n here
        have onward : retrieval.verifier.nextSegment ≤
            (retrieval.taken request data).verifier.nextSegment := by
          rw [sound.accepts.next, Retrieval.taken, accepts.next, List.length_append]
          exact Nat.le_add_right ..
        rcases (seen n).mp here with rfl | before
        · exact .inl (sound.running_le last known _ _ runs)
        · exact (sound.seen_le last known n before).imp_right (Nat.lt_of_lt_of_le · onward)
      accounted := by
        intro n inside
        rcases sound.accounted n inside with before | ⟨i, has⟩ | past | ⟨unknown, i, m, has, le⟩
        · exact .inl ((seen n).mpr (.inr before))
        · -- what ran is either the request that ended, now taken in, or still runs
          by_cases here : i = request.slot
          · subst here
            exact .inl ((seen n).mpr (.inl (has.unique runs).2))
          · exact .inr (.inl ⟨i, (running i n).mpr ⟨here, has⟩⟩)
        · exact .inr (.inr (.inl past))
        · exact .inr (.inr (.inr ⟨unknown, i, m, (failed i m).mpr has, le⟩))
      filled := by
        intro i inside elsewhere
        have elsewhere : i ≠ request.slot := fun here => elsewhere (congrArg some here.symm)
        refine (sound.filled i inside (Option.some_ne_none i).symm).imp_left ?_
        rintro ⟨n, has⟩
        exact ⟨n, (running i n).mpr ⟨elsewhere, has⟩⟩
      failing := by
        intro unknown hasFailure
        obtain ⟨i, m, has⟩ := sound.failing unknown hasFailure
        exact ⟨i, m, (failed i m).mpr has⟩
      waiting := fun whole => absurd whole (Option.some_ne_none _)
      unfinished := fun whole => absurd whole (Option.some_ne_none _)
      idle := by
        rintro i here n
        cases here
        exact ⟨fun has => ((running _ n).mp has).1 rfl,
          fun has => ((Window.has_markSucceeded_iff (by decide)).mp has).1 rfl⟩ }

/-- Learning the end forgets what lies past it, and nothing at or below it was lost. -/
theorem told {slot last : Nat} (sound : Sound size (some slot) retrieval output)
    (unknown : retrieval.window.finalSegment = none)
    (unfailed : ∀ i n, retrieval.window.Has .failed i n → last < n) :
    Sound size (some slot) (retrieval.told last).1 output := by
  have took : ∀ n data, (retrieval.told last).1.verifier.Took output.delivered n data ↔
      (n ≤ last ∧ ∃ held, retrieval.verifier.pending.get? n = some held ∧ held.data = data) ∨
        ∃ verified ∈ output.delivered, verified.segment = n ∧ verified.data = data :=
    fun n data => Verifier.took_discardBeyond
  have running : ∀ i n, (retrieval.told last).1.window.Has .running i n ↔
      n ≤ last ∧ retrieval.window.Has .running i n :=
    fun i n => Window.has_running_learned_iff
  have failed : ∀ i n, (retrieval.told last).1.window.Has .failed i n ↔
      retrieval.window.Has .failed i n :=
    fun i n => Window.has_failed_learned_iff
  have before : ∀ n, (retrieval.told last).1.Seen output n → retrieval.Seen output n := by
    rintro n ⟨data, here⟩
    rcases (took n data).mp here with ⟨_, held⟩ | logged
    · exact ⟨data, .inl held⟩
    · exact ⟨data, .inr logged⟩
  exact
    { slots := (Slots.length_cancelWhere ..).trans sound.slots
      ledger := sound.ledger.of_sameRequests (Window.sameRequests_learned _ _) rfl rfl
      accepts := sound.accepts.discardBeyond last
      events := sound.events
      bytes := sound.bytes
      requested := fun n here => sound.requested n (before n here)
      fresh := fun i n has here => sound.fresh i n ((running i n).mp has).2 (before n here)
      running_le := by
        intro _ known i n has
        cases known
        exact ((running i n).mp has).1
      seen_le := by
        rintro _ known n ⟨data, here⟩
        cases known
        rcases (took n data).mp here with ⟨within, _⟩ | ⟨verified, member, number, _⟩
        · exact .inl within
        · exact .inr (sound.accepts.mem_log_iff.mp ⟨verified, member, number⟩)
      accounted := by
        intro n inside
        -- at or below the end nothing was discarded or canceled, and nothing had failed
        by_cases past : last < n
        · exact .inr (.inr (.inl ⟨last, rfl, past⟩))
        · rcases sound.accounted n inside with ⟨data, held | logged⟩ | ⟨i, has⟩ |
            ⟨_, known, _⟩ | ⟨_, i, m, has, le⟩
          · exact .inl ⟨data, (took n data).mpr (.inl ⟨by omega, held⟩)⟩
          · exact .inl ⟨data, (took n data).mpr (.inr logged)⟩
          · exact .inr (.inl ⟨i, (running i n).mpr ⟨by omega, has⟩⟩)
          · rw [unknown] at known
            cases known
          · have beyond := unfailed i m has
            omega
      filled := by
        intro i inside elsewhere
        -- where segments are left to request, all that were requested lie within the end
        by_cases through : last < retrieval.window.nextSegment
        · exact .inr (.inr ⟨last, rfl, through⟩)
        · rcases sound.filled i inside elsewhere with ⟨n, has⟩ | ⟨_, hasFailure⟩ | ⟨_, known, _⟩
          · have requested := sound.ledger.has_lt has
            exact .inl ⟨n, (running i n).mpr ⟨by omega, has⟩⟩
          · obtain ⟨j, m, has⟩ := sound.failing unknown hasFailure
            have beyond := unfailed j m has
            have requested := sound.ledger.has_lt has
            omega
          · rw [unknown] at known
            cases known
      failing := nofun
      waiting := nofun
      unfinished := nofun
      idle := fun i here n => ⟨fun has => (sound.idle i here n).1 ((running i n).mp has).2,
        fun has => (sound.idle i here n).2 ((failed i n).mp has)⟩ }

/-- Every way to take a packet in keeps the invariant, but for the free slot. -/
theorem absorbed (sound : Sound size none retrieval output)
    (runs : retrieval.window.Has .running request.slot request.segment) {state : Retrieval}
    {aborted : Output} (absorbs : retrieval.Absorbs request data state aborted) :
    Sound size (some request.slot) state
      (output ++ (.ofVerified (retrieval.submitted request data).verified ++ aborted)) := by
  cases absorbs with
  | silent admits _ =>
    rw [Output.append_nil]
    exact sound.taken runs admits.sound
  | told admits unknown _ unfailed =>
    rw [← Output.append_assoc]
    refine ((sound.taken runs admits.sound).told unknown unfailed).transfer rfl rfl rfl ?_ ?_
    · simp [Retrieval.told]
    · simp [Retrieval.told]

/-- After a packet is taken in, what was taken in is the packet itself or was before. -/
theorem took_absorbed (sound : Sound size none retrieval output)
    (runs : retrieval.window.Has .running request.slot request.segment) {state : Retrieval}
    {aborted : Output} (absorbs : retrieval.Absorbs request data state aborted) {n : Nat}
    {packet : Data} (here : state.verifier.Took (output ++
      (.ofVerified (retrieval.submitted request data).verified ++ aborted)).delivered n packet) :
    n = request.segment ∧ packet = data ∨ retrieval.verifier.Took output.delivered n packet := by
  rw [← Output.append_assoc, Output.delivered_append, absorbs.delivered, List.append_nil] at here
  cases absorbs with
  | silent admits => exact (sound.took_taken runs admits.sound n packet).mp here
  | told admits =>
    refine (sound.took_taken runs admits.sound n packet).mp ?_
    exact (Verifier.took_discardBeyond.mp here).imp_left And.right

end packet

/-! ## The free slot -/

/-- Where every segment is requested, the free slot stays idle. -/
theorem exhausted {slot last : Nat} (sound : Sound size (some slot) retrieval output)
    (known : retrieval.window.finalSegment = some last)
    (unfinished : retrieval.verifier.nextSegment ≤ last)
    (through : last < retrieval.window.nextSegment) : Sound size none retrieval output where
  slots := sound.slots
  ledger := sound.ledger
  accepts := sound.accepts
  events := sound.events
  bytes := sound.bytes
  requested := sound.requested
  fresh := sound.fresh
  running_le := sound.running_le
  seen_le := sound.seen_le
  accounted := sound.accounted
  filled := fun _ _ _ => .inr (.inr ⟨last, known, through⟩)
  failing := sound.failing
  waiting := by
    intro _ unknown
    rw [known] at unknown
    cases unknown
  unfinished := by
    intro _ other known'
    rw [known, Option.some.injEq] at known'
    omega
  idle := nofun

/-- Requesting the next segment uses the free slot. -/
theorem requesting {slot : Nat} (sound : Sound size (some slot) retrieval output)
    (inside : slot < size)
    (unfinished : ∀ last, retrieval.window.finalSegment = some last →
      retrieval.verifier.nextSegment ≤ last ∧ retrieval.window.nextSegment ≤ last)
    (unfailed : retrieval.window.finalSegment = none → retrieval.window.hasFailure = false) :
    Sound size none (retrieval.requested slot).1 (output ++ (retrieval.requested slot).2) := by
  have inside : slot < retrieval.window.size := sound.slots ▸ inside
  have delivered : (output ++ (retrieval.requested slot).2).delivered = output.delivered := by
    simp
  have seen : ∀ n, (retrieval.requested slot).1.Seen (output ++ (retrieval.requested slot).2) n ↔
      retrieval.Seen output n := by
    intro n
    rw [Seen, delivered]
    rfl
  have has : ∀ state i n, (retrieval.requested slot).1.window.Has state i n ↔
      if i = slot then state = .running ∧ n = retrieval.window.nextSegment
      else retrieval.window.Has state i n :=
    fun state i n => Window.has_issued_iff inside
  have failed : ∀ i n, retrieval.window.Has .failed i n →
      (retrieval.requested slot).1.window.Has .failed i n := by
    intro i n failed
    have elsewhere : i ≠ slot := fun here => (sound.idle slot rfl n).2 (here ▸ failed)
    exact (has .failed i n).mpr (by rwa [if_neg elsewhere])
  have kept : ∀ i n, retrieval.window.Has .running i n →
      (retrieval.requested slot).1.window.Has .running i n := by
    intro i n runs
    have elsewhere : i ≠ slot := fun here => (sound.idle slot rfl n).1 (here ▸ runs)
    exact (has .running i n).mpr (by rwa [if_neg elsewhere])
  have new : (retrieval.requested slot).1.window.Has .running slot retrieval.window.nextSegment :=
    (has ..).mpr (by simp)
  exact
    { slots := (Window.size_issued ..).trans sound.slots
      ledger := sound.ledger.issued inside
      accepts := by
        rw [delivered]
        exact sound.accepts
      events := by simp [sound.events]
      bytes := by simp [sound.bytes]
      requested := fun n here => Nat.lt_succ_of_lt (sound.requested n ((seen n).mp here))
      fresh := by
        intro i n runs here
        have before := (seen n).mp here
        have runs := (has ..).mp runs
        split at runs
        · -- the new request is for a number never taken in
          have requested := sound.requested n before
          omega
        · exact sound.fresh i n runs before
      running_le := by
        intro last known i n runs
        have runs := (has ..).mp runs
        split at runs
        · have within := (unfinished last known).2
          omega
        · exact sound.running_le last known i n runs
      seen_le := fun last known n here => sound.seen_le last known n ((seen n).mp here)
      accounted := by
        intro n inside
        by_cases last : n = retrieval.window.nextSegment
        · subst last
          exact .inr (.inl ⟨slot, new⟩)
        · have earlier : n < retrieval.window.nextSegment :=
            Nat.lt_of_le_of_ne (Nat.le_of_lt_succ inside) last
          rcases sound.accounted n earlier with before | ⟨i, runs⟩ | past | ⟨unknown, i, m, fails, le⟩
          · exact .inl ((seen n).mpr before)
          · exact .inr (.inl ⟨i, kept i n runs⟩)
          · exact .inr (.inr (.inl past))
          · exact .inr (.inr (.inr ⟨unknown, i, m, failed i m fails, le⟩))
      filled := by
        intro i inside _
        -- the free slot runs the new request, and no other slot may be idle while one is made
        by_cases here : i = slot
        · subst here
          exact .inl ⟨_, new⟩
        · rcases sound.filled i inside (fun same => here (Option.some.inj same).symm) with
            ⟨n, runs⟩ | ⟨unknown, hasFailure⟩ | ⟨last, known, through⟩
          · exact .inl ⟨n, kept i n runs⟩
          · rw [unfailed unknown] at hasFailure
            cases hasFailure
          · have within := (unfinished last known).2
            omega
      failing := by
        intro unknown hasFailure
        obtain ⟨i, m, fails⟩ := sound.failing unknown hasFailure
        exact ⟨i, m, failed i m fails⟩
      waiting := fun _ _ _ => ⟨slot, _, new⟩
      unfinished := fun _ last known => (unfinished last known).1
      idle := nofun }

/-! ## A failure -/

/-- A failure that the retrieval survives is remembered in its slot, where it accounts for the
segments from its own on. -/
theorem remembered {index segment : Nat} (sound : Sound size none retrieval output)
    (runs : retrieval.window.Has .running index segment)
    (unknown : retrieval.window.finalSegment = none)
    (busy : 0 < (retrieval.window.remembered index segment).running) :
    Sound size none { retrieval with window := retrieval.window.remembered index segment }
      output := by
  have running : ∀ i n, (retrieval.window.remembered index segment).Has .running i n ↔
      n ≤ segment ∧ i ≠ index ∧ retrieval.window.Has .running i n :=
    fun i n => Window.has_running_remembered_iff
  have failed : ∀ i n, (retrieval.window.remembered index segment).Has .failed i n ↔
      i = index ∧ n = segment ∨ retrieval.window.Has .failed i n :=
    fun i n => Window.has_failed_remembered_iff runs
  exact
    { slots := (Slots.length_cancelWhere ..).trans ((Slots.length_setState ..).trans sound.slots)
      ledger := sound.ledger.of_sameRequests (Window.sameRequests_remembered _ _ _) rfl rfl
      accepts := sound.accepts
      events := sound.events
      bytes := sound.bytes
      requested := sound.requested
      fresh := fun i n has => sound.fresh i n ((running i n).mp has).2.2
      running_le := fun last known i n has => sound.running_le last known i n ((running i n).mp has).2.2
      seen_le := sound.seen_le
      accounted := by
        intro n inside
        rcases sound.accounted n inside with before | ⟨i, has⟩ | past | ⟨_, i, m, has, le⟩
        · exact .inl before
        · -- a request canceled for lying past the failure is accounted for by the failure
          by_cases later : segment ≤ n
          · exact .inr (.inr (.inr ⟨unknown, index, segment, (failed ..).mpr (.inl ⟨rfl, rfl⟩), later⟩))
          · refine .inr (.inl ⟨i, (running i n).mpr ⟨by omega, ?_, has⟩⟩)
            rintro rfl
            exact later (Nat.le_of_eq (has.unique runs).2.symm)
        · exact .inr (.inr (.inl past))
        · exact .inr (.inr (.inr ⟨unknown, i, m, (failed i m).mpr (.inr has), le⟩))
      filled := fun _ _ _ => .inr (.inl ⟨unknown, rfl⟩)
      failing := fun _ _ => ⟨index, segment, (failed ..).mpr (.inl ⟨rfl, rfl⟩)⟩
      waiting := fun _ _ _ => Window.running_pos_iff.mp busy
      unfinished := sound.unfinished
      idle := nofun }

/-! ## Steps and runs -/

/-- Every step that does not stop the retrieval keeps the invariant. -/
theorem step {elapsed : Duration} {request : Request} {result : Except FetchFailure Data}
    {next : Retrieval} {done : Output} (sound : Sound size none retrieval output)
    (step : retrieval.Step elapsed request result next done) (live : next.stopped = false) :
    Sound size none next (output ++ done) := by
  cases step with
  | stale =>
    rw [Output.append_nil]
    exact sound
  | failed runs gives =>
    cases gives with
    | fatal => cases live
    | ignored known past =>
      -- nothing past a known end runs, so no failure is ever ignored
      have within := sound.running_le _ known _ _ runs
      omega
    | lost => cases live
    | remembered unknown busy =>
      exact (sound.remembered runs unknown busy).transfer rfl rfl rfl (by simp) (by simp)
  | received runs receives =>
    cases receives with
    | unheard => cases live
    | refused => cases live
    | cut => cases live
    | finished => cases live
    | endless => cases live
    | exhausted absorbs known unfinished through =>
      exact (sound.absorbed runs absorbs).exhausted known unfinished through
    | requested absorbs unfinished unfailed =>
      rw [← Output.append_assoc, ← Output.append_assoc, Output.append_assoc output]
      exact (sound.absorbed runs absorbs).requesting (sound.slot_lt runs) unfinished unfailed

/-- What a step has taken in is the packet that it handles, or was taken in before. -/
theorem took_of_step {elapsed : Duration} {request : Request} {result : Except FetchFailure Data}
    {next : Retrieval} {done : Output} (sound : Sound size none retrieval output)
    (step : retrieval.Step elapsed request result next done) (live : next.stopped = false)
    {n : Nat} {packet : Data} (took : next.verifier.Took (output ++ done).delivered n packet) :
    (retrieval.window.Has .running request.slot request.segment ∧ n = request.segment ∧
        result = .ok packet) ∨ retrieval.verifier.Took output.delivered n packet := by
  cases step with
  | stale =>
    rw [Output.append_nil] at took
    exact .inr took
  | failed _ gives =>
    cases gives with
    | fatal => cases live
    | ignored =>
      rw [Output.append_nil] at took
      exact .inr took
    | lost => cases live
    | remembered =>
      rw [Output.delivered_append, delivered_forgone, List.append_nil] at took
      exact .inr took
  | @received data _ _ runs receives =>
    obtain ⟨state, aborted, absorbs, verifier, _, delivered⟩ := receives.exists_absorbs live
    have here : state.verifier.Took (output ++ (.ofVerified
        (retrieval.submitted request data).verified ++ aborted)).delivered n packet := by
      simpa [← verifier, delivered, absorbs.delivered] using took
    exact (sound.took_absorbed runs absorbs here).imp_left
      fun new => ⟨runs, new.1, congrArg _ new.2.symm⟩

/-- After a step, what runs is not the request whose fetch ended, and it ran before or was requested
by the step. -/
theorem running_of_step {elapsed : Duration} {request : Request}
    {result : Except FetchFailure Data} {next : Retrieval} {done : Output}
    (sound : Sound size none retrieval output) (issued : request ∈ output.requests)
    (step : retrieval.Step elapsed request result next done) (live : next.stopped = false)
    {i n : Nat} (runs : next.window.Has .running i n) :
    n ≠ request.segment ∧
      (retrieval.window.Has .running i n ∨ n = retrieval.window.nextSegment) := by
  -- a segment was requested once, through one slot
  have elsewhere : ∀ {i n}, retrieval.window.Has .running i n → i ≠ request.slot →
      n ≠ request.segment := by
    rintro i _ runs away rfl
    exact away (congrArg Request.slot
      (sound.ledger.eq_of_segment_eq (sound.ledger.mem_of_has runs) issued rfl))
  cases step with
  | stale old =>
    refine ⟨?_, .inl runs⟩
    rintro rfl
    have place := congrArg Request.slot
      (sound.ledger.eq_of_segment_eq (sound.ledger.mem_of_has runs) issued rfl)
    rw [(sound.ledger.isCurrent_iff issued).mpr (place ▸ runs)] at old
    cases old
  | failed _ gives =>
    cases gives with
    | fatal => cases live
    | ignored =>
      obtain ⟨away, before⟩ := Window.has_running_markFailed_iff.mp runs
      exact ⟨elsewhere before away, .inl before⟩
    | lost => cases live
    | remembered =>
      obtain ⟨_, away, before⟩ := Window.has_running_remembered_iff.mp runs
      exact ⟨elsewhere before away, .inl before⟩
  | received started receives =>
    cases receives with
    | unheard => cases live
    | refused => cases live
    | cut => cases live
    | finished => cases live
    | endless => cases live
    | exhausted absorbs =>
      obtain ⟨away, before⟩ := absorbs.running runs
      exact ⟨elsewhere before away, .inl before⟩
    | requested absorbs =>
      have inside := (sound.absorbed started absorbs).slots ▸ sound.slot_lt started
      have before := (Window.has_issued_iff inside).mp runs
      split at before
      · rw [before.2, absorbs.nextSegment]
        exact ⟨(Nat.ne_of_lt (sound.ledger.segment_lt issued)).symm, .inr rfl⟩
      · obtain ⟨away, before⟩ := absorbs.running before
        exact ⟨elsewhere before away, .inl before⟩

/-- A current request of the ledger ends in one of the steps. -/
theorem finish_step (sound : Sound size free retrieval output) (elapsed : Duration)
    {request : Request} (issued : request ∈ output.requests) (result : Except FetchFailure Data) :
    retrieval.Step elapsed request result (retrieval.finish elapsed request result).1
      (retrieval.finish elapsed request result).2 :=
  Retrieval.finish_step elapsed result (sound.ledger.isCurrent_iff issued).mp

/-- The check for a stall after the end of a fetch finds none. -/
theorem failIfStalled_finish (sound : Sound size none retrieval output) (nonempty : 0 < size)
    (elapsed : Duration) {request : Request} (issued : request ∈ output.requests)
    (result : Except FetchFailure Data) :
    (retrieval.finish elapsed request result).1.failIfStalled =
      ((retrieval.finish elapsed request result).1, {}) := by
  refine if_neg ?_
  rintro ⟨goesOn, stalled⟩
  have onward := sound.step (sound.finish_step elapsed issued result) (by simpa using goesOn)
  have waits := onward.running_pos nonempty
  omega

theorem handle_completed (sound : Sound size none retrieval output) (nonempty : 0 < size)
    (live : retrieval.stopped = false) (elapsed : Duration) {request : Request}
    (issued : request ∈ output.requests) (result : Except FetchFailure Data) :
    retrieval.handle elapsed (.completed request result) =
      retrieval.finish elapsed request result := by
  simp only [handle, live, Bool.false_eq_true, if_false,
    sound.failIfStalled_finish nonempty elapsed issued, Output.append_nil]

end Sound

/-- A run in which one of the first requests has ended. -/
theorem Run.first {size i : Nat} (inside : i < size) (elapsed : Duration)
    (result : Except FetchFailure Data) :
    Run size [.completed ⟨i, i, i⟩ result]
      ((opened size size).finish elapsed ⟨i, i, i⟩ result).1
      ({ requests := (List.range size).map fun i => ⟨i, i, i⟩ } ++
        ((opened size size).finish elapsed ⟨i, i, i⟩ result).2) := by
  have asked : (⟨i, i, i⟩ : Request) ∈ (ofSize size).start.2.requests := by
    simp [start_ofSize, inside]
  have run := Run.start.handle elapsed (.completed ⟨i, i, i⟩ result) fun request same =>
    Option.some.inj same ▸ asked
  simp only [start_ofSize] at run asked
  rwa [(Sound.opened size).handle_completed (Nat.zero_lt_of_lt inside) rfl elapsed asked] at run

/-- Induction over a run that goes on: it starts, it takes steps that do not stop it, each in a state
with the invariant, and it may lose its consumer. -/
theorem Run.induction_live {size : Nat} (nonempty : 0 < size)
    {motive : List Message → Retrieval → Output → Prop}
    (start : motive [] (opened size size) { requests := (List.range size).map fun i => ⟨i, i, i⟩ })
    (step : ∀ {messages retrieval output elapsed request result next done},
      Run size messages retrieval output → Sound size none retrieval output →
      request ∈ output.requests → retrieval.Step elapsed request result next done →
      next.stopped = false → motive messages retrieval output →
      motive (messages ++ [.completed request result]) next (output ++ done))
    (leave : ∀ {messages retrieval output} events, motive messages retrieval output →
      motive messages (retrieval.leaveAfter events) output)
    {messages : List Message} {retrieval : Retrieval} {output : Output}
    (run : Run size messages retrieval output) (live : retrieval.stopped = false) :
    motive messages retrieval output := by
  -- without the invariant the check for a stall could stop the retrieval after a step
  suffices whole : Sound size none retrieval output ∧ motive messages retrieval output from whole.2
  induction run with
  | start =>
    rw [start_ofSize]
    exact ⟨.opened size, start⟩
  | @handle messages retrieval output run elapsed message issued ih =>
    cases already : retrieval.stopped with
    | true =>
      rw [handle_of_stopped already, already] at live
      cases live
    | false =>
      obtain ⟨sound, before⟩ := ih already
      cases message with
      | cancel => simp [Retrieval.handle, already] at live
      | completed request result =>
        have issued := issued request rfl
        rw [sound.handle_completed nonempty already elapsed issued] at live ⊢
        have finishes := sound.finish_step elapsed issued result
        exact ⟨sound.step finishes live, step run sound issued finishes live before⟩
  | leave run events ih =>
    obtain ⟨sound, before⟩ := ih live
    exact ⟨sound.transfer rfl rfl rfl rfl rfl, leave events before⟩

/-- Between two messages the invariant holds, unless the retrieval has stopped. -/
theorem Run.sound {size : Nat} (nonempty : 0 < size) {messages : List Message}
    {retrieval : Retrieval} {output : Output} (run : Run size messages retrieval output)
    (live : retrieval.stopped = false) : Sound size none retrieval output :=
  run.induction_live nonempty (motive := fun _ => Sound size none) (.opened size)
    (fun _ sound _ step live _ => sound.step step live)
    (fun _ sound => sound.transfer rfl rfl rfl rfl rfl) live

/-- A run goes on in one of three ways: nothing happens after it has stopped, it is canceled, or the
end of a fetch takes it a step on. -/
theorem Run.handle_cases {size : Nat} (nonempty : 0 < size) {messages : List Message}
    {retrieval : Retrieval} {output : Output} (run : Run size messages retrieval output)
    (elapsed : Duration) {message : Message}
    (issued : ∀ request ∈ message.request?, request ∈ output.requests) :
    (retrieval.stopped = true ∧ retrieval.handle elapsed message = (retrieval, {})) ∨
      (retrieval.stopped = false ∧ message = .cancel ∧
        retrieval.handle elapsed message = retrieval.stop) ∨
      (retrieval.stopped = false ∧ Sound size none retrieval output ∧ ∃ request result,
        message = .completed request result ∧ request ∈ output.requests ∧
          retrieval.Step elapsed request result (retrieval.handle elapsed message).1
            (retrieval.handle elapsed message).2) := by
  cases stopped : retrieval.stopped with
  | true => exact .inl ⟨rfl, handle_of_stopped stopped elapsed message⟩
  | false =>
    refine .inr ?_
    have sound := run.sound nonempty stopped
    cases message with
    | cancel => exact .inl ⟨rfl, rfl, if_neg (by simp [stopped])⟩
    | completed request result =>
      have issued := issued request rfl
      refine .inr ⟨rfl, sound, request, result, rfl, issued, ?_⟩
      rw [sound.handle_completed nonempty stopped elapsed issued]
      exact sound.finish_step elapsed issued result

/-- A consumer that never leaves stays. -/
theorem Run.room_handle {size : Nat} (nonempty : 0 < size) {messages : List Message}
    {retrieval : Retrieval} {output : Output} (run : Run size messages retrieval output)
    (stays : retrieval.room = none) (elapsed : Duration) {message : Message}
    (issued : ∀ request ∈ message.request?, request ∈ output.requests) :
    (retrieval.handle elapsed message).1.room = none := by
  rcases run.handle_cases nonempty elapsed issued with ⟨_, same⟩ | ⟨_, _, same⟩ |
    ⟨_, _, _, _, _, _, step⟩
  · rw [same]
    exact stays
  · rw [same]
    exact stays
  · exact step.room stays

/-- A request whose fetch has ended does not run any more. -/
theorem Run.not_running_of_handled {size : Nat} (nonempty : 0 < size) {messages : List Message}
    {retrieval : Retrieval} {output : Output} (run : Run size messages retrieval output)
    (live : retrieval.stopped = false) :
    ∀ request ∈ messages.filterMap Message.request?,
      ¬ retrieval.window.Has .running request.slot request.segment := by
  refine run.induction_live nonempty (motive := fun messages retrieval _ =>
    ∀ request ∈ messages.filterMap Message.request?,
      ¬ retrieval.window.Has .running request.slot request.segment) nofun ?_ (fun _ => id) live
  intro messages retrieval output elapsed request result next done run sound issued step live before
    handled member runs
  rw [List.filterMap_append, List.mem_append] at member
  obtain ⟨other, ran | new⟩ := sound.running_of_step issued step live runs
  · rcases member with earlier | last
    · exact before handled earlier ran
    · cases List.mem_singleton.mp last
      exact other rfl
  · have asked : handled ∈ output.requests := by
      rcases member with earlier | last
      · exact run.mem_requests_of_handled earlier
      · cases List.mem_singleton.mp last
        exact issued
    have earlier := sound.ledger.segment_lt asked
    omega

/-- A run that has stopped was in a state with the invariant, and then either canceled or stopped by
the end of a fetch. -/
theorem Run.last_step {size : Nat} (nonempty : 0 < size) {messages : List Message}
    {retrieval : Retrieval} {output : Output} (run : Run size messages retrieval output)
    (stopped : retrieval.stopped = true) :
    ∃ earlier before history, Run size earlier before history ∧ before.stopped = false ∧
      Sound size none before history ∧
      ((earlier ++ [.cancel] <+: messages ∧
          retrieval = { before.stop.1 with room := retrieval.room } ∧
          output = history ++ before.stop.2) ∨
        ∃ elapsed request result next done, request ∈ history.requests ∧
          earlier ++ [.completed request result] <+: messages ∧
          before.Step elapsed request result next done ∧ next.stopped = true ∧
          (retrieval.listening = true → next.listening = true) ∧
          retrieval = { next with room := retrieval.room } ∧
          output = history ++ done) := by
  obtain ⟨earlier, before, history, elapsed, message, run, live, issued, shorter, heard, same, done⟩ :=
    run.exists_stopping stopped
  have sound := run.sound nonempty live
  cases message with
  | cancel =>
    have canceled : before.handle elapsed .cancel = before.stop := if_neg (by simp [live])
    rw [canceled] at same done
    exact ⟨earlier, before, history, run, live, sound, .inl ⟨shorter, same, done⟩⟩
  | completed request result =>
    have issued := issued request rfl
    rw [sound.handle_completed nonempty live elapsed issued] at heard same done
    have step := sound.finish_step elapsed issued result
    refine ⟨earlier, before, history, run, live, sound, .inr
      ⟨elapsed, request, result, _, _, issued, shorter, step, ?_, heard, same, done⟩⟩
    rw [same] at stopped
    exact stopped

end Retrieval

end SegmentRetrieval
