import SegmentRetrieval.Duration

/-! # Retrieval options

How many requests are kept in flight, how often a request is repeated, and what an Interest asks
for.  `Options.validate` refuses what lies outside the accepted ranges, the window size first.
-/

namespace SegmentRetrieval

/-- The largest window. -/
def maxWindowSize : Nat := 1024

/-- The largest bound on retries. -/
def maxRetries : Nat := 1024

/-- An option outside its range. -/
inductive OptionsError where
  | windowSize (size : Nat)
  | retries (value : Int)
deriving DecidableEq, Repr

def OptionsError.message : OptionsError → String
  | .windowSize size => s!"pipeline size must be between 1 and 1024, got {size}"
  | .retries value => s!"retries value must be between -1 and 1024, got {value}"

/-! ## Retry limits -/

/-- How many failures of one kind a request survives. -/
inductive RetryLimit where
  | unlimited
  | bounded (max : Nat)
deriving DecidableEq, Repr

namespace RetryLimit

instance : Inhabited RetryLimit := ⟨.bounded 15⟩

/-- A limit given as a number: `-1` for none, else the bound itself. -/
def ofInt (value : Int) : Except OptionsError RetryLimit :=
  if value = -1 then .ok .unlimited
  else if 0 ≤ value ∧ value ≤ maxRetries then .ok (.bounded value.toNat)
  else .error (.retries value)

/-- Whether a request that has failed so many times is made again. -/
def allows (limit : RetryLimit) (failures : Nat) : Bool :=
  match limit with
  | .unlimited => true
  | .bounded max => failures ≤ max

def text : RetryLimit → String
  | .unlimited => "unlimited"
  | .bounded max => toString max

end RetryLimit

/-! ## Options -/

/-- What a retrieval is asked to do. -/
structure Options where
  windowSize : Nat := 1
  retryLimit : RetryLimit := default
  mustBeFresh : Bool := false
  lifetime : Duration := .ofSeconds 4
deriving DecidableEq, Repr

/-- Refuses options outside their ranges. -/
def Options.validate (options : Options) : Except OptionsError Unit :=
  if options.windowSize < 1 ∨ maxWindowSize < options.windowSize then
    .error (.windowSize options.windowSize)
  else
    match options.retryLimit with
    | .unlimited => .ok ()
    | .bounded max => if maxRetries < max then .error (.retries max) else .ok ()

end SegmentRetrieval
