import SegmentRetrieval.Duration

/-! # Clocks

Times are counted in nanoseconds from the start.  How long a sleep takes is up to the clock: one that
counts in ticks sleeps until a tick comes that is late enough.
-/

namespace SegmentRetrieval

/-- How many nanoseconds a sleep takes, by the duration that it is asked for. -/
structure Clock where
  sleep : Duration → Nat

namespace Clock

/-- A sleep that is asked for this duration takes it. -/
def Keeps (clock : Clock) (asked : Duration) : Prop :=
  clock.sleep asked = asked.toNanos

instance (clock : Clock) (asked : Duration) : Decidable (clock.Keeps asked) :=
  inferInstanceAs (Decidable (_ = _))

/-- The time that a wait takes.  Where there is no time to wait, there is no sleep. -/
def wait (clock : Clock) (asked : Duration) : Nat :=
  if asked = .zero then 0 else clock.sleep asked

theorem wait_of_keeps {clock : Clock} {asked : Duration} (keeps : clock.Keeps asked) :
    clock.wait asked = asked.toNanos := by
  unfold wait
  split
  next none => rw [none]; rfl
  next => exact keeps

/-- The clock whose sleeps end at the first tick that is late enough, a tick every `tick`
nanoseconds. -/
def ticking (tick : Nat) : Clock where
  sleep asked := (asked.toNanos + (tick - 1)) / tick * tick

end Clock

end SegmentRetrieval
