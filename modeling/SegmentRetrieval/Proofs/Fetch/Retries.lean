import SegmentRetrieval.Proofs.Backoff
import SegmentRetrieval.Proofs.Fetch.Answer

/-! # What ends a fetch

Timeouts and Nacks are counted apart.  A packet ends a fetch, and so does a fault too many for its limit
or, where the limit bears it, a Nack that is not transient (`Decides`).  A fetch that nothing has ended so
far has counted its outcomes (`Met`), and so it ends at the first outcome that decides it
(`ends_at_first_decision`): one Interest has been expressed for each outcome up to that one, and only the
congestion Nacks before it have cost time.
-/

namespace SegmentRetrieval

/-! ## Counting outcomes -/

namespace Outcome

/-- The faults among outcomes, in order. -/
def faults (outcomes : List Outcome) : List InterestError :=
  outcomes.filterMap fun
    | .ok _ => none
    | .error fault => some fault

def timeouts (outcomes : List Outcome) : Nat :=
  (faults outcomes).count .timeout

def nacks (outcomes : List Outcome) : Nat :=
  (faults outcomes).countP InterestError.isNack

def congestions (outcomes : List Outcome) : Nat :=
  (faults outcomes).count (.nack .congestion)

theorem length_faults_le (outcomes : List Outcome) : (faults outcomes).length ≤ outcomes.length :=
  List.length_filterMap_le ..

theorem timeouts_le_length (outcomes : List Outcome) : timeouts outcomes ≤ outcomes.length :=
  Nat.le_trans List.count_le_length (length_faults_le outcomes)

theorem nacks_le_length (outcomes : List Outcome) : nacks outcomes ≤ outcomes.length :=
  Nat.le_trans List.countP_le_length (length_faults_le outcomes)

theorem congestions_le_length (outcomes : List Outcome) : congestions outcomes ≤ outcomes.length :=
  Nat.le_trans List.count_le_length (length_faults_le outcomes)

theorem faults_snoc (outcomes : List Outcome) (fault : InterestError) :
    faults (outcomes ++ [.error fault]) = faults outcomes ++ [fault] := by
  simp [faults]

theorem timeouts_snoc (outcomes : List Outcome) (fault : InterestError) :
    timeouts (outcomes ++ [.error fault]) =
      timeouts outcomes + if fault = .timeout then 1 else 0 := by
  rw [timeouts, faults_snoc, List.count_append, List.count_singleton]
  simp [timeouts]

theorem nacks_snoc (outcomes : List Outcome) (fault : InterestError) :
    nacks (outcomes ++ [.error fault]) = nacks outcomes + if fault.isNack then 1 else 0 := by
  rw [nacks, faults_snoc, List.countP_append, List.countP_singleton]
  rfl

theorem congestions_snoc (outcomes : List Outcome) (fault : InterestError) :
    congestions (outcomes ++ [.error fault]) =
      congestions outcomes + if fault = .nack .congestion then 1 else 0 := by
  rw [congestions, faults_snoc, List.count_append, List.count_singleton]
  simp [congestions]

end Outcome

namespace Fetch

/-! ## Decisions -/

/-- An outcome ends a fetch that met the earlier ones, with this result: a packet, the first timeout or
Nack that a bounded limit does not bear, or a Nack that is not transient and that the limit bears. -/
inductive Decides (limit : RetryLimit) (name : Name) (earlier : List Outcome) :
    Outcome → Except FetchFailure Data → Prop where
  | received {data : Data} : Decides limit name earlier (.ok data) (.ok data)
  | timeouts {max : Nat} (bounded : limit = .bounded max)
      (exhausted : Outcome.timeouts earlier = max) :
      Decides limit name earlier (.error .timeout) (.error (.timeoutRetriesExhausted name max))
  | nacks {max : Nat} {reason : NackReason} (bounded : limit = .bounded max)
      (exhausted : Outcome.nacks earlier = max) :
      Decides limit name earlier (.error (.nack reason)) (.error (.nackRetriesExhausted name max))
  | refused {reason : NackReason} (final : reason = .unspecified ∨ reason = .noRoute)
      (borne : ∀ max, limit = .bounded max → Outcome.nacks earlier ≠ max) :
      Decides limit name earlier (.error (.nack reason)) (.error (.nacked name reason))

/-- No outcome ends the fetch at its turn. -/
inductive Undecided (limit : RetryLimit) (name : Name) : List Outcome → Prop where
  | nil : Undecided limit name []
  | snoc {earlier : List Outcome} {outcome : Outcome} (undecided : Undecided limit name earlier)
      (goesOn : ∀ result, ¬ Decides limit name earlier outcome result) :
      Undecided limit name (earlier ++ [outcome])

/-- Outcome number `j`, counted from 0, is the first that ends the fetch, and gives this result. -/
structure EndsAt (limit : RetryLimit) (name : Name) (outcomes : List Outcome) (j : Nat)
    (result : Except FetchFailure Data) : Prop where
  first : Undecided limit name (outcomes.take j)
  decides : ∃ outcome, outcomes[j]? = some outcome ∧
    Decides limit name (outcomes.take j) outcome result

theorem Decides.unique {limit : RetryLimit} {name : Name} {earlier : List Outcome} {outcome : Outcome}
    {result other : Except FetchFailure Data} (decides : Decides limit name earlier outcome result)
    (decidesOther : Decides limit name earlier outcome other) : result = other := by
  cases decides with
  | received => cases decidesOther with | received => rfl
  | timeouts bounded exhausted =>
    cases decidesOther with
    | timeouts bounded' exhausted' => rw [← exhausted, ← exhausted']
  | nacks bounded exhausted =>
    cases decidesOther with
    | nacks bounded' exhausted' => rw [← exhausted, ← exhausted']
    | refused final borne => exact absurd exhausted (borne _ bounded)
  | refused final borne =>
    cases decidesOther with
    | nacks bounded exhausted => exact absurd exhausted (borne _ bounded)
    | refused => rfl

section decisions

variable {limit : RetryLimit} {name : Name} {outcomes : List Outcome}

/-- What has not ended a fetch was a fault, and no more faults of one kind than the limit bears. -/
theorem Undecided.counts (undecided : Undecided limit name outcomes) :
    outcomes.length = Outcome.timeouts outcomes + Outcome.nacks outcomes ∧
      ∀ max, limit = .bounded max →
        Outcome.timeouts outcomes ≤ max ∧ Outcome.nacks outcomes ≤ max := by
  induction undecided with
  | nil => exact ⟨rfl, fun max _ => ⟨Nat.zero_le max, Nat.zero_le max⟩⟩
  | @snoc earlier outcome _ goesOn ih =>
    obtain ⟨length, borne⟩ := ih
    rcases outcome with (_ | reason) | data
    · have timeouts : Outcome.timeouts (earlier ++ [.error .timeout]) =
          Outcome.timeouts earlier + 1 := Outcome.timeouts_snoc ..
      have nacks : Outcome.nacks (earlier ++ [.error .timeout]) = Outcome.nacks earlier :=
        Outcome.nacks_snoc ..
      refine ⟨by rw [List.length_append, List.length_singleton]; omega, fun max bounded => ?_⟩
      have one : Outcome.timeouts earlier ≠ max :=
        fun exhausted => goesOn _ (.timeouts bounded exhausted)
      have := borne max bounded
      omega
    · have timeouts : Outcome.timeouts (earlier ++ [.error (.nack reason)]) =
          Outcome.timeouts earlier := Outcome.timeouts_snoc ..
      have nacks : Outcome.nacks (earlier ++ [.error (.nack reason)]) =
          Outcome.nacks earlier + 1 := Outcome.nacks_snoc ..
      refine ⟨by rw [List.length_append, List.length_singleton]; omega, fun max bounded => ?_⟩
      have one : Outcome.nacks earlier ≠ max :=
        fun exhausted => goesOn _ (.nacks bounded exhausted)
      have := borne max bounded
      omega
    · exact absurd .received (goesOn (.ok data))

/-- Under a bound, a fetch that nothing has ended met at most that many timeouts and as many Nacks. -/
theorem Undecided.length_le {max : Nat} (undecided : Undecided (.bounded max) name outcomes) :
    outcomes.length ≤ 2 * max := by
  obtain ⟨length, borne⟩ := undecided.counts
  have := borne max rfl
  omega

theorem undecided_take_or_endsAt (limit : RetryLimit) (name : Name) (outcomes : List Outcome) :
    ∀ k ≤ outcomes.length,
      Undecided limit name (outcomes.take k) ∨ ∃ j result, EndsAt limit name outcomes j result
  | 0, _ => .inl .nil
  | k + 1, bound => by
    rcases undecided_take_or_endsAt limit name outcomes k (Nat.le_of_lt bound) with
      undecided | ends
    · by_cases decided : ∃ result, Decides limit name (outcomes.take k) outcomes[k] result
      · obtain ⟨result, decides⟩ := decided
        exact .inr ⟨k, result, undecided, _, List.getElem?_eq_getElem bound, decides⟩
      · rw [List.take_succ_eq_append_getElem bound]
        exact .inl (undecided.snoc (not_exists.mp decided))
    · exact .inr ends

theorem undecided_or_endsAt (limit : RetryLimit) (name : Name) (outcomes : List Outcome) :
    Undecided limit name outcomes ∨ ∃ j result, EndsAt limit name outcomes j result := by
  have all := undecided_take_or_endsAt limit name outcomes outcomes.length Nat.le.refl
  rwa [List.take_length] at all

end decisions

/-! ## One outcome -/

theorem not_decides_timeout {limit : RetryLimit} {name : Name} {earlier : List Outcome}
    (allowed : limit.allows (Outcome.timeouts earlier + 1) = true)
    (result : Except FetchFailure Data) :
    ¬ Decides limit name earlier (.error .timeout) result
  | .timeouts bounded exhausted => by
    have := RetryLimit.le_of_allows allowed bounded
    omega

theorem not_decides_nack {limit : RetryLimit} {name : Name} {earlier : List Outcome}
    {reason : NackReason} (transient : (InterestError.nack reason).isTransient = true)
    (allowed : limit.allows (Outcome.nacks earlier + 1) = true)
    (result : Except FetchFailure Data) :
    ¬ Decides limit name earlier (.error (.nack reason)) result
  | .nacks bounded exhausted => by
    have := RetryLimit.le_of_allows allowed bounded
    omega
  | .refused (.inl unspecified) _ => by
    subst unspecified
    cases transient
  | .refused (.inr noRoute) _ => by
    subst noRoute
    cases transient

theorem toNat_succ {count : UInt32} (room : count.toNat + 1 < UInt32.size) :
    (count + 1).toNat = count.toNat + 1 := by
  rw [UInt32.toNat_add]
  exact Nat.mod_eq_of_lt room

theorem toNat_saturatingSucc {count : UInt32} (room : count.toNat + 1 < UInt32.size) :
    (saturatingSucc count).toNat = count.toNat + 1 := by
  rw [saturatingSucc, if_pos room, toNat_succ room]

/-- The fetch has counted these outcomes. -/
structure Met (fetch : Fetch) (earlier : List Outcome) : Prop where
  timeouts : fetch.timeouts.toNat = Outcome.timeouts earlier
  nacks : fetch.nacks.toNat = Outcome.nacks earlier
  congestions : fetch.congestions.toNat = Outcome.congestions earlier

/-- One more fault, counted. -/
theorem Met.snoc {fetch next : Fetch} {earlier : List Outcome} {fault : InterestError}
    (met : fetch.Met earlier)
    (timeouts : next.timeouts.toNat = fetch.timeouts.toNat + if fault = .timeout then 1 else 0)
    (nacks : next.nacks.toNat = fetch.nacks.toNat + if fault.isNack then 1 else 0)
    (congestions : next.congestions.toNat =
      fetch.congestions.toNat + if fault = .nack .congestion then 1 else 0) :
    next.Met (earlier ++ [.error fault]) where
  timeouts := by rw [timeouts, Outcome.timeouts_snoc, met.timeouts]
  nacks := by rw [nacks, Outcome.nacks_snoc, met.nacks]
  congestions := by rw [congestions, Outcome.congestions_snoc, met.congestions]

section met

variable {fetch : Fetch} {earlier : List Outcome} (few : earlier.length + 1 < UInt32.size)
  (met : fetch.Met earlier)
include few met

/-- As many outcomes as 32 bits count leave room for one more of each kind. -/
theorem Met.succ : (fetch.timeouts + 1).toNat = Outcome.timeouts earlier + 1 ∧
    (fetch.nacks + 1).toNat = Outcome.nacks earlier + 1 ∧
    (saturatingSucc fetch.congestions).toNat = Outcome.congestions earlier + 1 := by
  have timeouts := Outcome.timeouts_le_length earlier
  have nacks := Outcome.nacks_le_length earlier
  have congestions := Outcome.congestions_le_length earlier
  have ⟨timeouts', nacks', congestions'⟩ := met
  exact ⟨by rw [toNat_succ (by omega), timeouts'], by rw [toNat_succ (by omega), nacks'],
    by rw [toNat_saturatingSucc (by omega), congestions']⟩

/-- An outcome after which the fetch goes on does not decide.  The fetch has met one more then, and waits
for the share of a congestion Nack, or not at all. -/
theorem Met.again {next : Fetch} {draw : UInt32} {outcome : Outcome} {wait : Duration}
    (again : fetch.answer draw outcome = .again wait next) :
    (∀ result, ¬ Decides fetch.limit fetch.interest.name earlier outcome result) ∧
      next.Met (earlier ++ [outcome]) ∧
      Backoff.total (Outcome.congestions earlier) + wait.toMillis =
        Backoff.total (Outcome.congestions (earlier ++ [outcome])) := by
  obtain ⟨timeouts, nacks, congestions⟩ := met.succ few
  have follows := fetch.answers draw outcome
  rw [again] at follows
  cases follows with
  | timedOut allowed =>
    refine ⟨not_decides_timeout (timeouts ▸ allowed),
      met.snoc (met.timeouts ▸ timeouts) rfl rfl, ?_⟩
    rw [Outcome.congestions_snoc]
    rfl
  | duplicate allowed =>
    refine ⟨not_decides_nack rfl (nacks ▸ allowed), met.snoc rfl (met.nacks ▸ nacks) rfl, ?_⟩
    rw [Outcome.congestions_snoc]
    rfl
  | congestion allowed =>
    refine ⟨not_decides_nack rfl (nacks ▸ allowed),
      met.snoc rfl (met.nacks ▸ nacks) (met.congestions ▸ congestions), ?_⟩
    rw [Backoff.toMillis_congestion, met.congestions, Outcome.congestions_snoc]
    rfl

/-- The outcome after which the fetch has finished decides. -/
theorem Met.finished {draw : UInt32} {outcome : Outcome} {result : Except FetchFailure Data}
    (undecided : Undecided fetch.limit fetch.interest.name earlier)
    (finished : fetch.answer draw outcome = .finished result) :
    Decides fetch.limit fetch.interest.name earlier outcome result := by
  obtain ⟨_, borne⟩ := undecided.counts
  obtain ⟨timeouts, nacks, _⟩ := met.succ few
  have follows := fetch.answers draw outcome
  rw [finished] at follows
  cases follows with
  | received => exact .received
  | timeoutsExhausted exhausted =>
    have bounded := RetryLimit.eq_bounded_of_exhausted
      (fun max bounded => (borne max bounded).1) (timeouts ▸ exhausted)
    rw [met.timeouts]
    exact .timeouts bounded rfl
  | nacked allowed final =>
    refine .refused (NackReason.eq_of_isTransient_eq_false final) fun max bounded exhausted => ?_
    have := RetryLimit.le_of_allows allowed bounded
    omega
  | nacksExhausted exhausted =>
    have bounded := RetryLimit.eq_bounded_of_exhausted
      (fun max bounded => (borne max bounded).2) (nacks ▸ exhausted)
    rw [met.nacks]
    exact .nacks bounded rfl

end met

theorem Met.again_of_goesOn {fetch : Fetch} {earlier : List Outcome} {outcome : Outcome} (draw : UInt32)
    (few : earlier.length + 1 < UInt32.size) (met : fetch.Met earlier)
    (undecided : Undecided fetch.limit fetch.interest.name earlier)
    (goesOn : ∀ result, ¬ Decides fetch.limit fetch.interest.name earlier outcome result) :
    ∃ wait next, fetch.answer draw outcome = .again wait next := by
  cases follows : fetch.answer draw outcome with
  | finished result => exact absurd (met.finished few undecided follows) (goesOn result)
  | again wait next => exact ⟨wait, next, rfl⟩

/-! ## A whole run -/

/-- The report of a fetch that had expressed these Interests before. -/
def Report.after (report : Report) (expressed : List (Nat × Interest)) : Report :=
  { report with expressed := expressed ++ report.expressed }

theorem Report.length_after (report : Report) (expressed : List (Nat × Interest)) :
    (report.after expressed).expressed.length = expressed.length + report.expressed.length :=
  List.length_append

theorem Report.after_after (report : Report) (first second : List (Nat × Interest)) :
    (report.after second).after first = report.after (first ++ second) := by
  simp only [Report.after, List.append_assoc]

section runs

variable {draws : Nat → UInt32} {fetch next : Fetch} {now : Nat} {outcome : Outcome}

theorem run_finished {result : Except FetchFailure Data}
    (finished : fetch.answer (draws fetch.retries) outcome = .finished result)
    (rest : List Outcome) :
    fetch.run draws now (outcome :: rest) = ⟨[(now, fetch.interest)], some result, now⟩ := by
  simp only [run, finished]

theorem run_again {wait : Duration}
    (again : fetch.answer (draws fetch.retries) outcome = .again wait next) (rest : List Outcome) :
    fetch.run draws now (outcome :: rest) =
      (next.run draws (now + wait.toMillis) rest).after [(now, fetch.interest)] := by
  simp only [run, again, Report.after, List.singleton_append]

/-- The first Interest is the fetch's own, at once. -/
theorem head?_expressed_run (draws : Nat → UInt32) (fetch : Fetch) (now : Nat)
    (outcomes : List Outcome) :
    (fetch.run draws now outcomes).expressed.head? = some (now, fetch.interest) := by
  cases outcomes with
  | nil => rfl
  | cons outcome rest =>
    cases follows : fetch.answer (draws fetch.retries) outcome with
    | finished => rw [run_finished follows]; rfl
    | again => rw [run_again follows]; rfl

/-- All Interests are alike but for their nonces. -/
theorem alike_expressed_run (draws : Nat → UInt32) (fetch : Fetch) (now : Nat)
    (outcomes : List Outcome) :
    ∀ entry ∈ (fetch.run draws now outcomes).expressed,
      ∃ nonce, entry.2 = { fetch.interest with nonce } := by
  induction outcomes generalizing fetch now with
  | nil =>
    rintro entry (_ | ⟨_, ⟨⟩⟩)
    exact ⟨_, rfl⟩
  | cons outcome rest ih =>
    cases follows : fetch.answer (draws fetch.retries) outcome with
    | finished result =>
      rw [run_finished follows]
      rintro entry (_ | ⟨_, ⟨⟩⟩)
      exact ⟨_, rfl⟩
    | again wait next =>
      rw [run_again follows]
      rintro entry (_ | ⟨_, mem⟩)
      · exact ⟨_, rfl⟩
      · obtain ⟨nonce, alike⟩ := ih next _ entry mem
        rw [(interest_of_again follows).2] at alike
        exact ⟨nonce, alike⟩

/-- No nonce is that of the Interest before. -/
theorem nonce_ne_expressed_run (draws : Nat → UInt32) (fetch : Fetch) (now : Nat)
    (outcomes : List Outcome) :
    ∀ k before after, (fetch.run draws now outcomes).expressed[k]? = some before →
      (fetch.run draws now outcomes).expressed[k + 1]? = some after →
      after.2.nonce ≠ before.2.nonce := by
  induction outcomes generalizing fetch now with
  | nil => rintro k before after - ⟨⟩
  | cons outcome rest ih =>
    intro k before after
    cases follows : fetch.answer (draws fetch.retries) outcome with
    | finished result =>
      rw [run_finished follows]
      rintro - ⟨⟩
    | again wait next =>
      rw [run_again follows]
      cases k with
      | succ k => exact ih next _ k before after
      | zero =>
        intro first second
        have head := head?_expressed_run draws next (now + wait.toMillis) rest
        rw [List.head?_eq_getElem?] at head
        cases first
        cases head.symm.trans second
        rw [(interest_of_again follows).2]
        exact fetch.interest.nonce_refreshNonce_ne _

/-- After outcomes that did not end the fetch it stands at `next` and has expressed one Interest for each
of them; what comes after, it meets as late as congestion has cost it. -/
structure Passes (draws : Nat → UInt32) (fetch : Fetch) (now : Nat) (earlier : List Outcome)
    (next : Fetch) (expressed : List (Nat × Interest)) : Prop where
  met : next.Met earlier
  limit : next.limit = fetch.limit
  name : next.interest.name = fetch.interest.name
  length : expressed.length = earlier.length
  run : ∀ rest, fetch.run draws now (earlier ++ rest) =
    (next.run draws (now + Backoff.total (Outcome.congestions earlier)) rest).after expressed

theorem exists_passes {limit : RetryLimit} {earlier : List Outcome} (draws : Nat → UInt32)
    (interest : Interest) (now : Nat) (few : earlier.length < UInt32.size)
    (undecided : Undecided limit interest.name earlier) :
    ∃ next expressed, Passes draws { interest, limit } now earlier next expressed := by
  induction undecided with
  | nil => exact ⟨{ interest, limit }, [], ⟨rfl, rfl, rfl⟩, rfl, rfl, rfl, fun _ => rfl⟩
  | @snoc earlier outcome undecided goesOn ih =>
    rw [List.length_append, List.length_singleton] at few
    obtain ⟨next, expressed, met, same, name, length, run⟩ := ih (Nat.lt_of_succ_lt few)
    rw [← name, ← show next.limit = limit from same] at undecided goesOn
    obtain ⟨wait, later, again⟩ :=
      met.again_of_goesOn (draws next.retries) few undecided goesOn
    obtain ⟨-, counted, late⟩ := met.again few again
    obtain ⟨sameLimit, refreshed⟩ := interest_of_again again
    refine ⟨later, expressed ++ [(now + Backoff.total (Outcome.congestions earlier), next.interest)],
      counted, sameLimit.trans same, ?_, ?_, fun rest => ?_⟩
    · rw [refreshed]
      exact name
    · rw [List.length_append, List.length_append, length]
      rfl
    · rw [List.append_assoc, List.singleton_append, run, run_again again, Nat.add_assoc, late,
        Report.after_after]

theorem run_of_endsAt {limit : RetryLimit} {interest : Interest} {outcomes : List Outcome} {j : Nat}
    {result : Except FetchFailure Data} (draws : Nat → UInt32) (now : Nat)
    (few : outcomes.length < UInt32.size) (ends : EndsAt limit interest.name outcomes j result) :
    let report := ({ interest, limit } : Fetch).run draws now outcomes
    report.result = some result ∧ report.expressed.length = j + 1 ∧
      report.elapsed = now + Backoff.total (Outcome.congestions (outcomes.take j)) := by
  obtain ⟨undecided, outcome, found, decides⟩ := ends
  obtain ⟨bound, rfl⟩ := List.getElem?_eq_some_iff.mp found
  have shorter : (outcomes.take j).length = j := List.length_take_of_le (Nat.le_of_lt bound)
  obtain ⟨next, expressed, met, same, name, length, run⟩ :=
    exists_passes draws interest now (by omega) undecided
  rw [shorter] at length
  have run := run (outcomes.drop j)
  rw [List.take_append_drop, List.drop_eq_getElem_cons bound] at run
  rw [← name, ← show next.limit = limit from same] at undecided decides
  cases follows : next.answer (draws next.retries) outcomes[j] with
  | again wait later => exact absurd decides ((met.again (by omega) follows).1 result)
  | finished answer =>
    rw [run_finished follows, (met.finished (by omega) undecided follows).unique decides] at run
    intro report
    rw [show report = _ from run]
    exact ⟨rfl, by rw [Report.length_after, length]; rfl, rfl⟩

theorem run_of_undecided {limit : RetryLimit} {interest : Interest} {outcomes : List Outcome}
    (draws : Nat → UInt32) (now : Nat) (few : outcomes.length < UInt32.size)
    (undecided : Undecided limit interest.name outcomes) :
    let report := ({ interest, limit } : Fetch).run draws now outcomes
    report.result = none ∧ report.expressed.length = outcomes.length + 1 := by
  obtain ⟨next, expressed, passes⟩ := exists_passes draws interest now few undecided
  have run := passes.run []
  rw [List.append_nil] at run
  intro report
  rw [show report = _ from run]
  exact ⟨rfl, by rw [Report.length_after, passes.length]; rfl⟩

end runs

/-! ## The end of a fetch -/

/-- A fetch that meets no more outcomes than 32 bits count ends at the first one that ends it, with that
result: one Interest for each outcome up to
that one, under a bound of `n` retries no more than `2 * n + 1` together, and the backoffs of the
congestion Nacks before it, whatever stands between them.  Where no outcome ends it the fetch waits for
one more, which under a bound cannot go on.  All Interests are the first one but for the nonce, which
differs each time from the one before. -/
theorem ends_at_first_decision (draws : Nat → UInt32) (interest : Interest) (limit : RetryLimit)
    (now : Nat) (outcomes : List Outcome) (few : outcomes.length < UInt32.size) :
    let report := ({ interest, limit } : Fetch).run draws now outcomes
    (∀ j result, EndsAt limit interest.name outcomes j result →
      report.result = some result ∧ report.expressed.length = j + 1 ∧
        report.elapsed = now + Backoff.total (Outcome.congestions (outcomes.take j)) ∧
        ∀ n, limit = .bounded n → j + 1 ≤ 2 * n + 1) ∧
      ((∀ j result, ¬ EndsAt limit interest.name outcomes j result) →
        report.result = none ∧ report.expressed.length = outcomes.length + 1) ∧
      (∀ n, limit = .bounded n → 2 * n < outcomes.length →
        ∃ j result, EndsAt limit interest.name outcomes j result) ∧
      report.expressed.head? = some (now, interest) ∧
      (∀ entry ∈ report.expressed, ∃ nonce, entry.2 = { interest with nonce }) ∧
      ∀ k before after, report.expressed[k]? = some before →
        report.expressed[k + 1]? = some after → after.2.nonce ≠ before.2.nonce := by
  intro report
  refine ⟨fun j result ends => ?_, fun never => ?_, fun n bounded more => ?_,
    head?_expressed_run draws _ now outcomes, alike_expressed_run draws _ now outcomes,
    nonce_ne_expressed_run draws _ now outcomes⟩
  · obtain ⟨result, expressed, elapsed⟩ := run_of_endsAt draws now few ends
    refine ⟨result, expressed, elapsed, fun n bounded => Nat.succ_le_succ ?_⟩
    obtain ⟨undecided, outcome, found, -⟩ := ends
    subst bounded
    have few := undecided.length_le
    rwa [List.length_take_of_le (Nat.le_of_lt (List.getElem?_eq_some_iff.mp found).1)] at few
  · rcases undecided_or_endsAt limit interest.name outcomes with undecided | ⟨j, result, ends⟩
    · exact run_of_undecided draws now few undecided
    · exact absurd ends (never j result)
  · rcases undecided_or_endsAt limit interest.name outcomes with undecided | ends
    · subst bounded
      exact absurd undecided.length_le (Nat.not_le_of_lt more)
    · exact ends

/-- After a timeout and a congestion Nack, the second Nack is one too many for a limit of one retry, and
its reason does not matter. -/
theorem ends_at_first_decision_exhausted :
    let interest : Interest := { name := ⟨[.ofSegment 0]⟩, nonce := 7 }
    let outcomes : List Outcome :=
      [.error .timeout, .error (.nack .congestion), .error (.nack .noRoute)]
    let report := ({ interest, limit := .bounded 1 } : Fetch).run (UInt32.ofNat ·) 0 outcomes
    outcomes.length < UInt32.size ∧ EndsAt (.bounded 1) interest.name outcomes 2
        (.error (.nackRetriesExhausted interest.name 1)) ∧
      report.result = some (.error (.nackRetriesExhausted interest.name 1)) ∧
      report.expressed.length = 3 ∧ report.elapsed = 1 := by
  intro interest outcomes report
  have timeout : Undecided (.bounded 1) interest.name [.error .timeout] :=
    .snoc .nil (not_decides_timeout rfl)
  have both : Undecided (.bounded 1) interest.name [.error .timeout, .error (.nack .congestion)] :=
    .snoc timeout (not_decides_nack rfl rfl)
  have ends : EndsAt (.bounded 1) interest.name outcomes 2
      (.error (.nackRetriesExhausted interest.name 1)) :=
    ⟨both, _, rfl, .nacks rfl rfl⟩
  have few : outcomes.length < UInt32.size := by decide
  obtain ⟨result, expressed, elapsed, -⟩ :=
    (ends_at_first_decision (UInt32.ofNat ·) interest (.bounded 1) 0 outcomes few).1 2 _ ends
  exact ⟨few, ends, result, expressed, elapsed⟩

end Fetch

end SegmentRetrieval
