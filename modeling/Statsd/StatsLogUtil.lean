/-
Time units and conversions (stats_log_util.{h,cpp}). Times are exact integers here: nanoseconds,
milliseconds and seconds as the sources name them, with C++ division rounding towards zero.
-/
import Mathlib.Tactic

namespace Statsd

/-- Nanoseconds per second. -/
def NS_PER_SEC : Int := 1000000000

def MillisToNano (millis : Int) : Int := millis * 1000000

def NanoToMillis (nano : Int) : Int := nano.tdiv 1000000

/-! ## Bucket sizes -/

inductive TimeUnit where
  | TIME_UNIT_UNSPECIFIED | ONE_MINUTE | FIVE_MINUTES | TEN_MINUTES | THIRTY_MINUTES | ONE_HOUR | THREE_HOURS
  | SIX_HOURS | TWELVE_HOURS | ONE_DAY | ONE_WEEK | CTS
deriving DecidableEq

def TimeUnitToBucketSizeInMillis : TimeUnit → Int
  | .ONE_MINUTE => 60 * 1000
  | .FIVE_MINUTES => 5 * 60 * 1000
  | .TEN_MINUTES => 10 * 60 * 1000
  | .THIRTY_MINUTES => 30 * 60 * 1000
  | .ONE_HOUR => 60 * 60 * 1000
  | .THREE_HOURS => 3 * 60 * 60 * 1000
  | .SIX_HOURS => 6 * 60 * 60 * 1000
  | .TWELVE_HOURS => 12 * 60 * 60 * 1000
  | .ONE_DAY => 24 * 60 * 60 * 1000
  | .ONE_WEEK => 7 * 24 * 60 * 60 * 1000
  | .CTS => 1000
  | .TIME_UNIT_UNSPECIFIED => -1

def AID_ROOT : Int := 0
def AID_SHELL : Int := 2000

/-- Only the shell and root may have buckets of less than five minutes. -/
def TimeUnitToBucketSizeInMillisGuardrailed (uid : Int) (unit : TimeUnit) : Int :=
  let bucketSizeMillis := TimeUnitToBucketSizeInMillis unit
  if bucketSizeMillis > 1000 ∧ bucketSizeMillis < 5 * 60 * 1000 ∧ uid ≠ AID_SHELL ∧ uid ≠ AID_ROOT then 5 * 60 * 1000
  else bucketSizeMillis

/-- The bucket size of a metric with a `bucket`, in nanoseconds. -/
def bucketSizeNs (uid : Int) (unit : TimeUnit) : Int := TimeUnitToBucketSizeInMillisGuardrailed uid unit * 1000000

end Statsd
