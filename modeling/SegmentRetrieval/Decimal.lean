/-! # Decimal text of binary floating point

A finite double is an integer times a power of two, so its decimals are exact integers.  They are cut
after a fixed number of places by rounding to the nearest, and a value halfway between two goes to
the even one.
-/

namespace SegmentRetrieval.Decimal

/-- The integer nearest to a quotient; of two equally near the even one. -/
def roundDiv (numerator denominator : Nat) : Nat :=
  let quotient := numerator / denominator
  let twice := 2 * (numerator % denominator)
  if twice < denominator ∨ (twice = denominator ∧ quotient % 2 = 0) then quotient else quotient + 1

/-- The integer and the exponent of two that make up the size of a finite double. -/
def decompose (x : Float) : Nat × Int :=
  let bits := x.toBits.toNat
  let unit : Nat := 1 <<< 52
  let exponent : Nat := bits / unit % 2048
  let fraction : Nat := bits % unit
  if exponent = 0 then (fraction, -1074) else (fraction + unit, Int.ofNat exponent - 1075)

/-- The size of a finite double as a count of units of the last place shown. -/
def units (places : Nat) (x : Float) : Nat :=
  let (mantissa, exponent) := decompose x
  if 0 ≤ exponent then (mantissa * Nat.pow 10 places) <<< exponent.toNat
  else roundDiv (mantissa * Nat.pow 10 places) (1 <<< (-exponent).toNat)

/-- The text of a finite double that is not negative, with so many places after the point. -/
def fixed (places : Nat) (x : Float) : String :=
  let n := units places x
  let fraction := Nat.toDigits 10 (n % Nat.pow 10 places)
  toString (n / Nat.pow 10 places) ++ "."
    ++ String.ofList (List.replicate (places - fraction.length) '0' ++ fraction)

end SegmentRetrieval.Decimal
