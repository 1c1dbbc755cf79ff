import SegmentRetrieval.Proofs.Verifier.Log

/-! # Where a cascade ends

A cascade works through the packets at hand, which are the one it begins with and the held ones, in
the order of their numbers.  It ends at the first number for which there is no packet or one that is
not accepted: the packets before that are accepted, the packet there is gone and named in the error,
and the packets behind it are held as before (`Cascaded`).  So a submission accepts and refuses no
packet but the one submitted and those held, and it says nothing about a held packet unless it has
accepted the packet before.
-/

namespace SegmentRetrieval

/-- The segment whose packet an error refuses. -/
def RetrievalError.judged? : RetrievalError → Option Nat
  | .integrity n _ => some n
  | _ => none

/-- The segments that a submission judges: it accepts them, or refuses the packet of the last. -/
def Submitted.judged (submitted : Submitted) : List Nat :=
  submitted.verified.map Verified.segment ++
    (submitted.error.bind RetrievalError.judged?).toList

theorem RetrievalError.judged?_eq_some_iff {error : RetrievalError} {n : Nat} :
    error.judged? = some n ↔ ∃ reason, error = .integrity n reason := by
  cases error <;> simp [judged?]

theorem Submitted.mem_judged_iff {submitted : Submitted} {n : Nat} : n ∈ submitted.judged ↔
    (∃ verified ∈ submitted.verified, verified.segment = n) ∨
      ∃ reason, submitted.error = some (.integrity n reason) := by
  simp only [judged, List.mem_append, List.mem_map, Option.mem_toList,
    Option.bind_eq_some_iff, RetrievalError.judged?_eq_some_iff]
  refine or_congr_right ⟨?_, ?_⟩
  · rintro ⟨_, failed, reason, rfl⟩
    exact ⟨reason, failed⟩
  · rintro ⟨reason, failed⟩
    exact ⟨_, failed, reason, rfl⟩

namespace Verifier

/-- The error that refuses a packet as segment `n`. -/
def refusal (verifier : Verifier) (n : Nat) (data : Data) : Option RetrievalError :=
  match verifier.authenticate n data with
  | .error error => some (.integrity n error)
  | .ok () => none

/-- The verifier but for the packet that it holds as segment `n`. -/
def without (verifier : Verifier) (n : Nat) : Verifier :=
  { verifier with pending := verifier.pending.erase n }

/-- A cascade from segment `start` has worked through `queue`. -/
structure Cascaded (queue : Table Nat Held) (start : Nat) (submitted : Submitted)
    (after : Verifier) : Prop where
  onward : start ≤ after.nextSegment
  held : ∀ n held, after.pending.get? n = some held ↔
    after.nextSegment < n ∧ queue.get? n = some held
  accepted : ∀ verified ∈ submitted.verified,
    ∃ held, queue.get? verified.segment = some held ∧ held.data = verified.data
  refused : submitted.error = (queue.get? after.nextSegment).bind fun held =>
    after.refusal after.nextSegment held.data
  stuck : ∀ held, queue.get? after.nextSegment = some held →
    after.authenticate after.nextSegment held.data ≠ .ok ()

section steps

variable {verifier : Verifier} {m : Nat} {held next : Held}

theorem cascade_of_refused {reason : IntegrityError}
    (failed : verifier.authenticate m held.data = .error reason) :
    verifier.cascade m held = ({ error := some (.integrity m reason) }, verifier) := by
  rw [cascade, failed]

theorem cascade_of_missing (authentic : verifier.authenticate m held.data = .ok ())
    (missing : verifier.pending.get? (m + 1) = none) :
    verifier.cascade m held =
      ({ verified := [⟨m, held.content.payload, held.data⟩] }, verifier.accept m held) := by
  rw [cascade, authentic]
  dsimp only
  split
  next => rfl
  next found => cases missing.symm.trans found

theorem cascade_of_found (authentic : verifier.authenticate m held.data = .ok ())
    (found : verifier.pending.get? (m + 1) = some next) :
    verifier.cascade m held =
      let rest := ((verifier.accept m held).without (m + 1)).cascade (m + 1) next
      ({ rest.1 with verified := ⟨m, held.content.payload, held.data⟩ :: rest.1.verified },
        rest.2) := by
  rw [cascade, authentic]
  dsimp only
  split
  next missing => cases found.symm.trans missing
  next other =>
    cases found.symm.trans other
    rfl

end steps

section cascaded

variable {verifier : Verifier} {held : Held}
  (later : ∀ m other, verifier.pending.get? m = some other → verifier.nextSegment < m)
include later

theorem Cascaded.of_refused {reason : IntegrityError}
    (failed : verifier.authenticate verifier.nextSegment held.data = .error reason) :
    Cascaded (verifier.pending.insert verifier.nextSegment held) verifier.nextSegment
      { error := some (.integrity verifier.nextSegment reason) } verifier := by
  refine ⟨Nat.le_refl _, fun m other => ?_, fun _ => (absurd · List.not_mem_nil), ?_, ?_⟩
  · rw [Table.get?_insert]
    constructor
    · intro found
      have beyond := later m other found
      exact ⟨beyond, by rw [if_neg (Nat.ne_of_gt beyond), found]⟩
    · rintro ⟨beyond, found⟩
      rwa [if_neg (Nat.ne_of_gt beyond)] at found
  · simp [refusal, failed]
  · intro other found
    rw [Table.get?_insert, if_pos rfl] at found
    cases found
    simp [failed]

theorem Cascaded.of_missing (missing : verifier.pending.get? (verifier.nextSegment + 1) = none) :
    Cascaded (verifier.pending.insert verifier.nextSegment held) verifier.nextSegment
      { verified := [⟨verifier.nextSegment, held.content.payload, held.data⟩] }
      (verifier.accept verifier.nextSegment held) := by
  have ended : (verifier.pending.insert verifier.nextSegment held).get?
      (verifier.nextSegment + 1) = none := by
    rw [Table.get?_insert, if_neg (Nat.succ_ne_self _), missing]
  refine ⟨Nat.le_succ _, fun m other => ?_, ?_, ?_, ?_⟩
  · simp only [accept, Table.get?_insert]
    constructor
    · intro found
      have beyond := later m other found
      have apart : m ≠ verifier.nextSegment + 1 := by
        rintro rfl
        rw [missing] at found
        cases found
      exact ⟨by omega, by rw [if_neg (Nat.ne_of_gt beyond), found]⟩
    · rintro ⟨beyond, found⟩
      rwa [if_neg (by omega)] at found
  · intro verified member
    cases List.mem_singleton.mp member
    exact ⟨held, by rw [Table.get?_insert, if_pos rfl], rfl⟩
  · exact congrArg (Option.bind · _) ended.symm
  · intro other found
    cases ended.symm.trans found

/-- Behind the packet just accepted, the rest of a cascade has the same packets at hand. -/
theorem Cascaded.of_found {next : Held} {submitted : Submitted} {after : Verifier}
    (found : verifier.pending.get? (verifier.nextSegment + 1) = some next)
    (rest : Cascaded ((verifier.pending.erase (verifier.nextSegment + 1)).insert
      (verifier.nextSegment + 1) next) (verifier.nextSegment + 1) submitted after) :
    Cascaded (verifier.pending.insert verifier.nextSegment held) verifier.nextSegment
      { submitted with
        verified :=
          ⟨verifier.nextSegment, held.content.payload, held.data⟩ :: submitted.verified }
      after := by
  have agree : ∀ m, verifier.nextSegment < m →
      ((verifier.pending.erase (verifier.nextSegment + 1)).insert
          (verifier.nextSegment + 1) next).get? m =
        (verifier.pending.insert verifier.nextSegment held).get? m := by
    intro m beyond
    simp only [Table.get?_insert, Table.get?_erase, if_neg (Nat.ne_of_gt beyond)]
    split
    next here => rw [here, found]
    next => rfl
  have onward : verifier.nextSegment < after.nextSegment := rest.onward
  refine ⟨Nat.le_of_lt onward, fun m other => ?_, ?_, ?_, ?_⟩
  · rw [rest.held]
    refine and_congr_right fun beyond => ?_
    rw [agree m (Nat.lt_trans onward beyond)]
  · intro verified member
    rcases List.mem_cons.mp member with rfl | following
    · exact ⟨held, by rw [Table.get?_insert, if_pos rfl], rfl⟩
    · obtain ⟨other, place, same⟩ := rest.accepted verified following
      refine ⟨other, ?_, same⟩
      rw [← agree _ ?_, place]
      rw [Table.get?_insert, Table.get?_erase] at place
      split at place
      next here => omega
      next => exact later _ _ place
  · rw [rest.refused, agree _ onward]
  · rw [← agree _ onward]
    exact rest.stuck

end cascaded

theorem cascaded {verifier : Verifier} {n : Nat} {held : Held} (expected : verifier.nextSegment = n)
    (later : ∀ m other, verifier.pending.get? m = some other → n < m) :
    Cascaded (verifier.pending.insert n held) n (verifier.cascade n held).1
      (verifier.cascade n held).2 := by
  induction verifier, n, held using Verifier.cascade.induct with
  | case1 verifier n held reason failed =>
    subst expected
    rw [cascade_of_refused failed]
    exact .of_refused later failed
  | case2 verifier n held authentic missing =>
    subst expected
    rw [cascade_of_missing authentic missing]
    exact .of_missing later missing
  | case3 verifier n held authentic next found _ _ _ _ ih =>
    subst expected
    rw [cascade_of_found authentic found]
    refine .of_found later found (ih rfl fun m other stayed => ?_)
    obtain ⟨apart, before⟩ := Table.get?_erase_eq_some_iff.mp stayed
    have beyond := later m other before
    omega

theorem refusal_of_ne_ok {verifier : Verifier} {n : Nat} {data : Data}
    (failed : verifier.authenticate n data ≠ .ok ()) :
    ∃ reason, verifier.refusal n data = some (.integrity n reason) := by
  unfold refusal
  cases outcome : verifier.authenticate n data with
  | error reason => exact ⟨reason, rfl⟩
  | ok => exact absurd outcome failed

theorem refusal_eq_some_iff {verifier : Verifier} {n m : Nat} {data : Data}
    {reason : IntegrityError} : verifier.refusal n data = some (.integrity m reason) ↔
      n = m ∧ verifier.authenticate n data = .error reason := by
  unfold refusal
  cases verifier.authenticate n data <;> simp

/-! ## Submissions -/

section submissions

variable {verifier : Verifier} {log : List Verified} (accepts : verifier.Accepts log)
include accepts

theorem Accepts.cascaded_submit (data : Data) (content : Content) :
    Cascaded (verifier.pending.insert verifier.nextSegment ⟨data, content⟩) verifier.nextSegment
      (verifier.cascade verifier.nextSegment ⟨data, content⟩).1
      (verifier.cascade verifier.nextSegment ⟨data, content⟩).2 :=
  cascaded rfl fun m other found => accepts.next ▸ (accepts.held m other found).1

theorem Accepts.held_of_verified {n : Nat} {data : Data} {verified : Verified}
    (member : verified ∈ (verifier.submit n data).1.verified) :
    verified.segment = n ∨ ∃ held, verifier.pending.get? verified.segment = some held := by
  rcases verifier.submit_cases n data with ⟨_, same⟩ | ⟨_, _, same⟩ | ⟨_, _, _, same⟩ |
    ⟨content, _, rfl, same⟩ <;> rw [same] at member
  · cases member
  · cases member
  · cases member
  · obtain ⟨held, found, _⟩ := (accepts.cascaded_submit data content).accepted verified member
    rw [Table.get?_insert] at found
    split at found
    next here => exact .inl here
    next => exact .inr ⟨held, found⟩

/-- A submission refuses the packet submitted, or the held one that is next. -/
theorem Accepts.held_of_refused {n m : Nat} {data : Data} {reason : IntegrityError}
    (refused : (verifier.submit n data).1.error = some (.integrity m reason)) :
    m = n ∨ m = (verifier.submit n data).2.nextSegment ∧
      ∃ held, verifier.pending.get? m = some held := by
  rcases verifier.submit_cases n data with ⟨_, same⟩ | ⟨_, _, same⟩ | ⟨_, _, _, same⟩ |
    ⟨content, _, rfl, same⟩ <;> rw [same] at refused ⊢
  · cases refused
  · cases refused
    exact .inl rfl
  · cases refused
  · rw [(accepts.cascaded_submit data content).refused] at refused
    obtain ⟨held, found, refused⟩ := Option.bind_eq_some_iff.mp refused
    obtain ⟨rfl, _⟩ := refusal_eq_some_iff.mp refused
    rw [Table.get?_insert] at found
    split at found
    next here => exact .inl here
    next => exact .inr ⟨rfl, held, found⟩

/-- A submission judges the packet submitted and held ones only. -/
theorem Accepts.held_of_mem_judged {n m : Nat} {data : Data}
    (judges : m ∈ (verifier.submit n data).1.judged) :
    m = n ∨ ∃ held, verifier.pending.get? m = some held := by
  rcases Submitted.mem_judged_iff.mp judges with ⟨verified, member, rfl⟩ | ⟨reason, refused⟩
  · exact accepts.held_of_verified member
  · exact (accepts.held_of_refused refused).imp_right And.right

/-- What a submission accepts is numbered from the segment that was next up to the one that is. -/
theorem Accepts.map_segment_verified (m : Nat) (data : Data) :
    (verifier.submit m data).1.verified.map Verified.segment =
      List.range' verifier.nextSegment
        ((verifier.submit m data).2.nextSegment - verifier.nextSegment) := by
  have before := accepts.linked.map_segment
  have after := (accepts.submit m data).linked.map_segment
  have length := (accepts.submit m data).next
  rw [List.map_append, before, List.length_append, List.range_eq_range', List.range_eq_range',
    ← List.range'_append_1, Nat.zero_add] at after
  rw [List.length_append] at length
  rw [length, accepts.next, Nat.add_sub_cancel_left]
  exact List.append_cancel_left after

/-- A submission judges a held packet exactly when it accepts every packet before. -/
theorem Accepts.mem_judged_iff {n m : Nat} {data : Data} {held : Held}
    (holds : verifier.pending.get? m = some held) (apart : m ≠ n) :
    m ∈ (verifier.submit n data).1.judged ↔ m ≤ (verifier.submit n data).2.nextSegment := by
  rw [Submitted.mem_judged_iff]
  have extended := accepts.submit n data
  have later := (accepts.held m held holds).1
  constructor
  · rintro (⟨verified, member, rfl⟩ | ⟨reason, refused⟩)
    · exact Nat.le_of_lt (extended.mem_log_iff.mp ⟨verified, List.mem_append_right _ member, rfl⟩)
    · rcases accepts.held_of_refused refused with same | ⟨here, _⟩
      · exact absurd same apart
      · exact Nat.le_of_eq here
  · intro reached
    rcases Nat.lt_or_eq_of_le reached with past | here
    · -- the log goes past the packet and did not contain it before
      obtain ⟨verified, member, number⟩ := extended.mem_log_iff.mpr past
      refine .inl ⟨verified, (List.mem_append.mp member).resolve_left fun earlier => ?_, number⟩
      have accepted := accepts.mem_log_iff.mp ⟨verified, earlier, number⟩
      rw [accepts.next] at accepted
      omega
    · right
      rw [← accepts.next] at later
      rcases verifier.submit_cases n data with ⟨_, same⟩ | ⟨_, _, same⟩ | ⟨_, _, _, same⟩ |
        ⟨content, _, rfl, same⟩ <;> rw [same] at here ⊢
      -- without a cascade the packet stays behind the next one
      · exact absurd here (Nat.ne_of_gt later)
      · exact absurd here (Nat.ne_of_gt later)
      · exact absurd here (Nat.ne_of_gt later)
      · have place : (verifier.pending.insert verifier.nextSegment ⟨data, content⟩).get? m =
            some held := by
          rw [Table.get?_insert, if_neg apart, holds]
        have spec := accepts.cascaded_submit data content
        obtain ⟨reason, refused⟩ := refusal_of_ne_ok (spec.stuck held (here ▸ place))
        refine ⟨reason, ?_⟩
        rw [spec.refused, ← here, place, Option.bind_some, here, refused]

/-- A submission judges one segment after another, from the one that was next on. -/
theorem Accepts.eq_add_of_getElem?_judged {n m i : Nat} {data : Data}
    (judges : (verifier.submit n data).1.judged[i]? = some m) (apart : m ≠ n) :
    m = verifier.nextSegment + i := by
  have onward : verifier.nextSegment ≤ (verifier.submit n data).2.nextSegment := by
    rw [(accepts.submit n data).next, accepts.next]
    simp
  rw [Submitted.judged, accepts.map_segment_verified, List.getElem?_append,
    List.length_range'] at judges
  split at judges
  next accepted =>
    rw [List.getElem?_range' accepted, Nat.one_mul] at judges
    exact (Option.some.inj judges).symm
  next past =>
    -- what is refused comes right after what is accepted
    obtain ⟨inside, refuses⟩ := List.getElem?_eq_some_iff.mp judges
    have alone := Option.length_toList_le (o := (verifier.submit n data).1.error.bind
      RetrievalError.judged?)
    have member := Option.mem_toList.mp (List.mem_of_getElem refuses)
    obtain ⟨error, failed, names⟩ := Option.bind_eq_some_iff.mp member
    obtain ⟨reason, rfl⟩ := RetrievalError.judged?_eq_some_iff.mp names
    rcases accepts.held_of_refused failed with same | ⟨here, _⟩
    · exact absurd same apart
    · omega

/-- A judged packet that was held is among the first `count` that a submission judges exactly when its
number is. -/
theorem Accepts.mem_take_judged_iff {n m count : Nat} {data : Data} (apart : m ≠ n) :
    m ∈ (verifier.submit n data).1.judged.take count ↔
      m < verifier.nextSegment + count ∧ m ∈ (verifier.submit n data).1.judged := by
  simp only [List.mem_iff_getElem?, List.getElem?_take]
  constructor
  · rintro ⟨i, judges⟩
    split at judges
    next early =>
      have place := accepts.eq_add_of_getElem?_judged judges apart
      exact ⟨by omega, i, judges⟩
    next => cases judges
  · rintro ⟨early, i, judges⟩
    have place := accepts.eq_add_of_getElem?_judged judges apart
    exact ⟨i, by rw [if_pos (by omega), judges]⟩

end submissions

/-! ## Which check fails -/

/-- A packet fails, as segment `n` after the segments of `log`, the check that an integrity error names,
and passes the checks that are made before that one. -/
inductive FailsCheck (log : List Verified) (n : Nat) (data : Data) : IntegrityError → Prop where
  | malformedContent {error : ContentError} (unread : data.readContent = .error error) :
      FailsCheck log n data (.malformedContent error)
  | badSignature {content : Content} {error : VerificationError}
      (reads : data.readContent = .ok content) (uncovered : data.verify = .error error) :
      FailsCheck log n data (.badSignature error)
  | missingCommitment {content : Content} {last : Verified}
      (reads : data.readContent = .ok content) (covered : data.verify = .ok ())
      (member : last ∈ log) (precedes : last.segment + 1 = n) (silent : last.commitment? = none) :
      FailsCheck log n data .missingCommitment
  | mismatch {content : Content} {last : Verified} {commitment : Bytes} {error : VerificationError}
      (reads : data.readContent = .ok content) (covered : data.verify = .ok ())
      (member : last ∈ log) (precedes : last.segment + 1 = n)
      (commits : last.commitment? = some commitment)
      (differs : data.checkCommitment commitment = .error error) :
      FailsCheck log n data (.mismatch error)

section checks

variable {verifier : Verifier} {log : List Verified} (accepts : verifier.Accepts log)
include accepts

theorem Accepts.failsCheck_of_authenticate {data : Data} {content : Content}
    {reason : IntegrityError} (reads : data.readContent = .ok content)
    (failed : verifier.authenticate verifier.nextSegment data = .error reason) :
    FailsCheck log verifier.nextSegment data reason := by
  rw [accepts.next] at failed ⊢
  unfold authenticate at failed
  cases covered : data.verify with
  | error error =>
    simp only [covered] at failed
    cases failed
    exact .badSignature reads covered
  | ok =>
    simp only [covered] at failed
    split at failed
    next => cases failed
    next nonempty =>
      -- only the commitment of the last accepted segment is kept
      obtain ⟨last, final⟩ : ∃ last, log[log.length - 1]? = some last :=
        ⟨_, List.getElem?_eq_getElem (by omega)⟩
      have member := List.mem_of_getElem? final
      have precedes : last.segment + 1 = log.length := by
        rw [accepts.linked.segment_eq_of_getElem? final]
        omega
      have kept : verifier.commitments.get? (log.length - 1) = last.commitment? := by
        rw [accepts.commitments, if_pos (by omega), List.getLast?_eq_getElem?, final]
        rfl
      rw [kept] at failed
      cases commits : last.commitment? with
      | none =>
        simp only [commits] at failed
        cases failed
        exact .missingCommitment reads covered member precedes commits
      | some commitment =>
        simp only [commits] at failed
        cases differs : data.checkCommitment commitment with
        | ok =>
          rw [differs] at failed
          cases failed
        | error error =>
          rw [differs] at failed
          cases failed
          exact .mismatch reads covered member precedes commits differs

/-- The packet that a submission refuses is the one submitted or a held one, and it fails the check that
the error names. -/
theorem Accepts.failsCheck_of_refused {n m : Nat} {data : Data} {reason : IntegrityError}
    (refused : (verifier.submit n data).1.error = some (.integrity m reason)) :
    ∃ packet, (m = n ∧ packet = data ∨
        ∃ held, verifier.pending.get? m = some held ∧ held.data = packet) ∧
      FailsCheck (log ++ (verifier.submit n data).1.verified) m packet reason := by
  have extended := accepts.submit n data
  rcases verifier.submit_cases n data with ⟨_, same⟩ | ⟨error, unread, same⟩ | ⟨_, _, _, same⟩ |
    ⟨content, reads, rfl, same⟩ <;> rw [same] at refused extended ⊢
  · cases refused
  · cases refused
    exact ⟨data, .inl ⟨rfl, rfl⟩, .malformedContent unread⟩
  · cases refused
  · rw [(accepts.cascaded_submit data content).refused] at refused
    obtain ⟨held, found, refused⟩ := Option.bind_eq_some_iff.mp refused
    obtain ⟨rfl, failed⟩ := refusal_eq_some_iff.mp refused
    rw [Table.get?_insert] at found
    split at found
    next here =>
      cases found
      exact ⟨data, .inl ⟨here, rfl⟩, extended.failsCheck_of_authenticate reads failed⟩
    next =>
      have readable := (accepts.held _ held found).2
      exact ⟨held.data, .inr ⟨held, found, rfl⟩,
        extended.failsCheck_of_authenticate readable failed⟩

end checks

end Verifier

end SegmentRetrieval
