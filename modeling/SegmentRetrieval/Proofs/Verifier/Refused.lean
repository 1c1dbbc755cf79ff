import SegmentRetrieval.Proofs.Seal.Chain
import SegmentRetrieval.Proofs.Verifier.Calls
import SegmentRetrieval.Proofs.Verifier.Cascade

/-! # A refused packet leaves no trace

A submission that refuses the packet submitted accepts nothing and changes nothing.  One that refuses a
held packet has accepted every packet before it, and it answers and leaves behind what it would
without that packet (`cascade_without`).  The verifier without the packet is the one to which no packet
was ever submitted for its segment (`performAll_without`), so from then on nothing tells the two
apart.
-/

namespace SegmentRetrieval

/-- The answer but for a refusal of the packet of segment `n`. -/
def Submitted.without (submitted : Submitted) (n : Nat) : Submitted :=
  { submitted with error := submitted.error.filter (·.judged? ≠ some n) }

theorem Submitted.without_of_refusing {submitted : Submitted} {n : Nat} {reason : IntegrityError}
    (refused : submitted.error = some (.integrity n reason)) :
    submitted.without n = { verified := submitted.verified } := by
  have judged : RetrievalError.judged? (.integrity n reason) = some n := rfl
  simp [without, refused, Option.filter, judged]

theorem Submitted.without_of_refusing_other {submitted : Submitted} {m n : Nat}
    {reason : IntegrityError} (refused : submitted.error = some (.integrity m reason))
    (apart : m ≠ n) : submitted.without n = submitted := by
  have judged : RetrievalError.judged? (.integrity m reason) = some m := rfl
  obtain ⟨verified, error⟩ := submitted
  cases refused
  simp [without, Option.filter, judged, apart]

namespace Verifier

/-! ## One cascade -/

section cascade

variable {verifier : Verifier} {m n : Nat} {held next : Held}

/-- A cascade gets past the segment that it begins with, or it refuses its packet and changes
nothing. -/
theorem cascade_passes_or_refuses (verifier : Verifier) (m : Nat) (held : Held) :
    m < (verifier.cascade m held).2.nextSegment ∨ ∃ reason,
      verifier.cascade m held = ({ error := some (.integrity m reason) }, verifier) := by
  fun_induction Verifier.cascade verifier m held with
  | case1 verifier m held reason => exact .inr ⟨reason, rfl⟩
  | case2 verifier m held => exact .inl (Nat.lt_succ_self m)
  | case3 verifier m held authentic accepted next found shorter submitted after result =>
    rename_i ih
    rw [result] at ih
    left
    rcases ih with passed | ⟨reason, refused⟩
    · exact Nat.lt_of_succ_lt passed
    · cases refused
      exact Nat.lt_succ_self m

/-- A cascade that would only refuse the next packet ends before it where that packet is not held. -/
theorem cascade_without_next (authentic : verifier.authenticate m held.data = .ok ())
    (found : verifier.pending.get? (m + 1) = some next)
    (reaches : (verifier.cascade m held).2.nextSegment ≤ m + 1) :
    (verifier.without (m + 1)).cascade m held =
      ((verifier.cascade m held).1.without (m + 1), (verifier.cascade m held).2.without (m + 1)) := by
  have alone : (verifier.without (m + 1)).authenticate m held.data = .ok () := authentic
  have missing : (verifier.without (m + 1)).pending.get? (m + 1) = none := by simp [without]
  rw [cascade_of_found authentic found] at reaches ⊢
  rw [cascade_of_missing alone missing]
  rcases cascade_passes_or_refuses ((verifier.accept m held).without (m + 1)) (m + 1) next with
    passed | ⟨reason, refused⟩
  · exact absurd passed (Nat.not_lt.mpr reaches)
  · rw [refused, Submitted.without_of_refusing rfl]
    simp only [without, accept, Table.erase_erase]

/-- A cascade that gets no further than segment `n` is the same without the packet held there, but
that the packet is not refused. -/
theorem cascade_without (before : m < n) (reaches : (verifier.cascade m held).2.nextSegment ≤ n) :
    (verifier.without n).cascade m held =
      ((verifier.cascade m held).1.without n, (verifier.cascade m held).2.without n) := by
  induction verifier, m, held using Verifier.cascade.induct with
  | case1 verifier m held reason failed =>
    have failed' : (verifier.without n).authenticate m held.data = .error reason := failed
    rw [cascade_of_refused failed, cascade_of_refused failed',
      Submitted.without_of_refusing_other rfl (Nat.ne_of_lt before)]
  | case2 verifier m held authentic missing =>
    have authentic' : (verifier.without n).authenticate m held.data = .ok () := authentic
    have missing' : (verifier.without n).pending.get? (m + 1) = none := by simp [without, missing]
    rw [cascade_of_missing authentic missing, cascade_of_missing authentic' missing']
    rfl
  | case3 verifier m held authentic next found _ _ _ _ ih =>
    by_cases here : m + 1 = n
    · subst here
      exact cascade_without_next authentic found reaches
    · have authentic' : (verifier.without n).authenticate m held.data = .ok () := authentic
      have found' : (verifier.without n).pending.get? (m + 1) = some next := by
        simp [without, found, here]
      have same : ((verifier.without n).accept m held).without (m + 1) =
          ((verifier.accept m held).without (m + 1)).without n := by
        simp only [without, accept, Table.erase_comm]
      rw [cascade_of_found authentic found] at reaches
      have rest : (((verifier.accept m held).without (m + 1)).without n).cascade (m + 1) next = _ :=
        ih (by omega) reaches
      rw [cascade_of_found authentic found, cascade_of_found authentic' found', same, rest]
      rfl

end cascade

/-! ## One submission -/

section submission

variable {verifier : Verifier} {n : Nat}

/-- Packets for other segments are answered the same without the packet held for segment `n`, until that
is the one to be judged. -/
theorem submit_without {m : Nat} {data : Data} (behind : verifier.nextSegment < n) (apart : m ≠ n)
    (reaches : (verifier.submit m data).2.nextSegment ≤ n) :
    (verifier.without n).submit m data =
      ((verifier.submit m data).1.without n, (verifier.submit m data).2.without n) := by
  have next : (verifier.without n).nextSegment = verifier.nextSegment := rfl
  unfold submit at reaches ⊢
  rw [next]
  by_cases seen : m < verifier.nextSegment
  · simp only [if_pos seen]
    rfl
  · simp only [if_neg seen] at reaches ⊢
    cases reads : data.readContent with
    | error reason =>
      simp only
      rw [Submitted.without_of_refusing_other rfl apart]
    | ok content =>
      simp only [reads] at reaches ⊢
      by_cases early : verifier.nextSegment < m
      · simp only [if_pos early, without, Table.erase_insert_of_ne _ _ apart]
        rfl
      · simp only [if_neg early] at reaches ⊢
        exact cascade_without (by omega) reaches

/-- Of a packet for segment `n` that is not accepted at once, a verifier without what it holds there
keeps nothing. -/
theorem without_submit_self (behind : verifier.nextSegment < n) (data : Data) :
    (verifier.submit n data).2.without n = verifier.without n := by
  rcases verifier.submit_cases n data with ⟨_, same⟩ | ⟨_, _, same⟩ | ⟨_, _, _, same⟩ |
    ⟨_, _, expected, _⟩
  · rw [same]
  · rw [same]
  · rw [same]
    simp only [without, Table.erase_insert]
  · exact absurd expected (Nat.ne_of_gt behind)

end submission

/-! ## All submissions for one segment -/

/-- The call submits a packet as segment `n`. -/
def Call.isFor (n : Nat) : Call → Bool
  | .submit segment _ => segment == n
  | .discardBeyond _ => false

section calls

variable {verifier : Verifier} {log : List Verified} {n : Nat}

theorem perform_without {call : Call} (behind : verifier.nextSegment < n)
    (apart : call.isFor n = false) (reaches : (verifier.perform call).2.nextSegment ≤ n) :
    ((verifier.without n).perform call).2 = (verifier.perform call).2.without n := by
  cases call with
  | submit m data => exact congrArg Prod.snd (submit_without behind (by simpa [Call.isFor] using apart) reaches)
  | discardBeyond last =>
    change (verifier.without n).discardBeyond last = (verifier.discardBeyond last).without n
    simp only [discardBeyond, without, Table.erase_restrict]

theorem without_perform_self {call : Call} (behind : verifier.nextSegment < n)
    (here : call.isFor n = true) : (verifier.perform call).2.without n = verifier.without n := by
  cases call with
  | submit m data =>
    obtain rfl : m = n := by simpa [Call.isFor] using here
    exact without_submit_self behind data
  | discardBeyond last => cases here

theorem Accepts.le_nextSegment_perform (accepts : verifier.Accepts log) (call : Call) :
    verifier.nextSegment ≤ (verifier.perform call).2.nextSegment := by
  rw [accepts.next, (accepts.perform call).next, List.length_append]
  exact Nat.le_add_right ..

theorem Accepts.le_nextSegment_performAll (accepts : verifier.Accepts log) (calls : List Call) :
    verifier.nextSegment ≤ (verifier.performAll calls).2.nextSegment := by
  rw [accepts.next, (accepts.performAll calls).next, List.length_append]
  exact Nat.le_add_right ..

/-- As long as segment `n` is not the next one, a verifier to which no packet was submitted for it is the
verifier without the packet that it holds there. -/
theorem Accepts.performAll_without (accepts : verifier.Accepts log) (calls : List Call)
    (behind : (verifier.performAll calls).2.nextSegment < n) :
    ((verifier.without n).performAll (calls.filter (! ·.isFor n))).2 =
      (verifier.performAll calls).2.without n := by
  induction calls generalizing verifier log with
  | nil => rfl
  | cons call calls ih =>
    have onward : (verifier.perform call).2.nextSegment < n :=
      Nat.lt_of_le_of_lt ((accepts.perform call).le_nextSegment_performAll calls) behind
    have start : verifier.nextSegment < n :=
      Nat.lt_of_le_of_lt (accepts.le_nextSegment_perform call) onward
    have rest := ih (accepts.perform call) behind
    cases kind : call.isFor n with
    | true =>
      rw [List.filter_cons_of_neg (by simp [kind])]
      rw [without_perform_self start kind] at rest
      exact rest
    | false =>
      rw [List.filter_cons_of_pos (by simp [kind])]
      rw [← perform_without start kind (Nat.le_of_lt onward)] at rest
      exact rest

/-! ## Refusals -/

/-- A submission refuses the packet submitted, and then it accepts nothing and changes nothing, or it
refuses a held packet once it has accepted every packet before. -/
theorem Accepts.refused_cases (accepts : verifier.Accepts log) {m : Nat} {data : Data}
    {reason : IntegrityError}
    (refused : (verifier.submit m data).1.error = some (.integrity n reason)) :
    (n = m ∧ verifier.submit m data = ({ error := some (.integrity m reason) }, verifier)) ∨
      (m = verifier.nextSegment ∧ m < n ∧ n = (verifier.submit m data).2.nextSegment ∧
        ∃ held, verifier.pending.get? n = some held) := by
  rcases verifier.submit_cases m data with ⟨_, same⟩ | ⟨_, _, same⟩ | ⟨_, _, _, same⟩ |
    ⟨content, _, rfl, same⟩ <;> rw [same] at refused ⊢
  · cases refused
  · cases refused
    exact .inl ⟨rfl, rfl⟩
  · cases refused
  · rcases cascade_passes_or_refuses verifier verifier.nextSegment ⟨data, content⟩ with
      passed | ⟨_, alone⟩
    · rw [(accepts.cascaded_submit data content).refused] at refused
      obtain ⟨held, found, refused⟩ := Option.bind_eq_some_iff.mp refused
      obtain ⟨rfl, _⟩ := refusal_eq_some_iff.mp refused
      rw [Table.get?_insert, if_neg (Nat.ne_of_gt passed)] at found
      exact .inr ⟨rfl, passed, rfl, held, found⟩
    · rw [alone] at refused ⊢
      cases refused
      exact .inl ⟨rfl, rfl⟩

theorem Accepts.without_nextSegment (accepts : verifier.Accepts log) :
    verifier.without verifier.nextSegment = verifier := by
  have absent : verifier.pending.get? verifier.nextSegment = none := by
    refine Option.eq_none_iff_forall_ne_some.mpr fun held found => ?_
    have later := (accepts.held _ held found).1
    exact absurd accepts.next (Nat.ne_of_gt later)
  rw [without, Table.erase_of_get?_eq_none absent]

/-- A submission that refuses a held packet is the same without it, but for the refusal. -/
theorem Accepts.submit_without_refused (accepts : verifier.Accepts log) {data : Data}
    {reason : IntegrityError} (passed : verifier.nextSegment < n)
    (reached : n = (verifier.submit verifier.nextSegment data).2.nextSegment)
    (refused : (verifier.submit verifier.nextSegment data).1.error = some (.integrity n reason)) :
    (verifier.without n).submit verifier.nextSegment data =
      ({ verified := (verifier.submit verifier.nextSegment data).1.verified },
        (verifier.submit verifier.nextSegment data).2) := by
  -- the packet refused is taken out of the table
  have left := (accepts.submit verifier.nextSegment data).without_nextSegment
  rw [← reached] at left
  rw [submit_without passed (Nat.ne_of_lt passed) (Nat.le_of_eq reached.symm),
    Submitted.without_of_refusing refused, left]

end calls

/-- After any calls on a fresh verifier, a submission that refuses the packet submitted accepts nothing
and changes nothing.  One that refuses a held packet accepts every segment before it; without that packet it
accepts the same segments, refuses none and leaves the same verifier behind, and the verifier without
the packet is the one to which no packet was ever submitted for its segment. -/
theorem refused_leaves_no_trace (calls : List Call) (m : Nat) (data : Data) {error : RetrievalError}
    (refused : ((performAll {} calls).2.submit m data).1.error = some error) :
    let verifier := (performAll {} calls).2
    let submitted := (verifier.submit m data).1
    let after := (verifier.submit m data).2
    ∃ n reason, error = .integrity n reason ∧ m ≤ n ∧
      (n = m → submitted.verified = [] ∧ after = verifier) ∧
      (m < n → submitted.verified.map Verified.segment = List.range' m (n - m) ∧
        (∃ held, verifier.pending.get? n = some held) ∧
        (verifier.without n).submit m data = ({ verified := submitted.verified }, after) ∧
        verifier.without n = (performAll {} (calls.filter (! ·.isFor n))).2) := by
  intro verifier submitted after
  have accepts := accepts_nil.performAll calls
  obtain ⟨n, reason, rfl⟩ := exists_integrity_of_error refused
  refine ⟨n, reason, rfl, ?_⟩
  rcases accepts.refused_cases refused with ⟨rfl, same⟩ | ⟨rfl, passed, reached, holds⟩
  · exact ⟨Nat.le_refl _, fun _ => ⟨congrArg (·.1.verified) same, congrArg Prod.snd same⟩,
      fun later => absurd later (Nat.lt_irrefl _)⟩
  · refine ⟨Nat.le_of_lt passed, fun same => absurd same (Nat.ne_of_gt passed), fun _ =>
      ⟨?_, holds, accepts.submit_without_refused passed reached refused,
        (accepts_nil.performAll_without calls passed).symm⟩⟩
    rw [reached]
    exact accepts.map_segment_verified _ data

/-- A packet with no signature value is held for segment 1 and refused once segment 0 is accepted. -/
theorem refused_leaves_no_trace_unsigned :
    let genuine := Chain.sealSegment ⟨[]⟩ .omitted 0 0 [1] none
    let forged := { genuine with signature := [] }
    let verifier := (performAll {} [.submit 1 forged]).2
    ∃ reason, (verifier.submit 0 genuine).1.error = some (.integrity 1 reason) ∧
      (verifier.submit 0 genuine).1.verified.map Verified.segment = [0] ∧
      (verifier.without 1).submit 0 genuine =
        ({ verified := (verifier.submit 0 genuine).1.verified }, (verifier.submit 0 genuine).2) ∧
      verifier.without 1 = {} := by
  intro genuine forged verifier
  have reads : genuine.readContent = .ok ⟨[1], none⟩ :=
    Chain.readContent_sealSegment ⟨by decide, nofun⟩
  have covered : genuine.verify = .ok () := Chain.verify_sealSegment ..
  have readsForged : forged.readContent = .ok ⟨[1], none⟩ := reads
  have holds : verifier = { pending := [(1, ⟨forged, ⟨[1], none⟩⟩)] } :=
    congrArg Prod.snd (submit_early Nat.zero_lt_one readsForged)
  have unsigned : (({} : Verifier).accept 0 ⟨genuine, ⟨[1], none⟩⟩).authenticate 1 forged =
      .error (.badSignature .missingSignature) := rfl
  have released : (({} : Verifier).accept 0 ⟨genuine, ⟨[1], none⟩⟩).cascade 1
      ⟨forged, ⟨[1], none⟩⟩ = _ := cascade_of_refused unsigned
  have refused : (verifier.submit 0 genuine).1.error =
      some (.integrity 1 (.badSignature .missingSignature)) := by
    rw [holds, submit_zero_released covered reads released]
  obtain ⟨n, reason, same, _, _, later⟩ :=
    refused_leaves_no_trace [.submit 1 forged] 0 genuine refused
  cases same
  obtain ⟨numbered, _, answer, unsubmitted⟩ := later Nat.zero_lt_one
  exact ⟨_, refused, numbered, answer, unsubmitted⟩

end Verifier

end SegmentRetrieval
