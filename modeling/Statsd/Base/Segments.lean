/-
A search for the first time at which a value reaches a threshold, segment by segment. The times from `start` on
are cut at `ends 0 ≤ ends 1 ≤ …`; inside a segment the value reaches the threshold from a candidate on. A search
that goes through the segments and takes the first candidate that is not after the end of its segment finds the
least such time, if the candidates never go back.
-/
import Mathlib.Tactic

namespace Statsd.Segments

variable {start threshold : Int} {ends cand : Nat → Int} {value : Int → Int}

/-- The time lies in the `i`-th segment; the end of a segment belongs to it. -/
structure InSegment (start : Int) (ends : Nat → Int) (i : Nat) (time : Int) : Prop where
  start : start ≤ time
  lower : ∀ k < i, ends k < time
  upper : time ≤ ends i

theorem exists_inSegment {time : Int} (hstart : start ≤ time) :
    ∀ j, time ≤ ends j → ∃ i ≤ j, InSegment start ends i time := by
  intro j hj
  have hex : ∃ k, time ≤ ends k := ⟨j, hj⟩
  refine ⟨Nat.find hex, Nat.find_min' hex hj, hstart, ?_, Nat.find_spec hex⟩
  intro k hk
  have := Nat.find_min hex hk
  omega

end Statsd.Segments
