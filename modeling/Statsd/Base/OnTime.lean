/-
A signal that is on or off, given by the log of its changes, and the time for which it is on between two
times. Each change holds from its time on, until the next one.
-/
import Mathlib.Data.Int.Interval
import Mathlib.Tactic

namespace Statsd

/-- The changes of a signal: from a time on, it is on or off. -/
abbrev SignalLog := List (Int × Bool)

namespace SignalLog

/-- Whether the signal is on at a time; it is off before its first change. -/
def isOn (log : SignalLog) (time : Int) : Bool := log.foldl (fun on change => if change.1 ≤ time then change.2 else on) false

/-- The time in `[start, stop)` for which the signal is on. -/
noncomputable def onTime (log : SignalLog) (start stop : Int) : Int := ((Finset.Ico start stop).filter fun time => log.isOn time = true).card

variable {log : SignalLog} {start mid stop : Int}

theorem isOn_append (log : SignalLog) (change : Int × Bool) (time : Int) :
    isOn (log ++ [change]) time = if change.1 ≤ time then change.2 else log.isOn time := by
  simp [isOn, List.foldl_append]

theorem onTime_append (log : SignalLog) {change : Int × Bool} (h : stop ≤ change.1) (start : Int) :
    onTime (log ++ [change]) start stop = log.onTime start stop := by
  have hfilter : (Finset.Ico start stop).filter (fun time => isOn (log ++ [change]) time = true) =
      (Finset.Ico start stop).filter fun time => log.isOn time = true := by
    apply Finset.filter_congr
    intro time htime
    have := (Finset.mem_Ico.mp htime).2
    rw [isOn_append, if_neg (by omega)]
  unfold onTime
  rw [hfilter]

theorem onTime_add (log : SignalLog) (h1 : start ≤ mid) (h2 : mid ≤ stop) :
    log.onTime start stop = log.onTime start mid + log.onTime mid stop := by
  have hsplit : (Finset.Ico start stop).filter (fun time => log.isOn time = true) =
      (Finset.Ico start mid).filter (fun time => log.isOn time = true) ∪
        (Finset.Ico mid stop).filter fun time => log.isOn time = true := by
    rw [← Finset.filter_union, Finset.Ico_union_Ico_eq_Ico h1 h2]
  have hdisjoint : Disjoint ((Finset.Ico start mid).filter fun time => log.isOn time = true)
      ((Finset.Ico mid stop).filter fun time => log.isOn time = true) :=
    Finset.disjoint_filter_filter (Finset.Ico_disjoint_Ico_consecutive start mid stop)
  unfold onTime
  rw [hsplit, Finset.card_union_of_disjoint hdisjoint]
  push_cast
  rfl

theorem onTime_const {on : Bool} (hconst : ∀ time, start ≤ time → log.isOn time = on) (h : start ≤ stop) :
    log.onTime start stop = if on then stop - start else 0 := by
  have hfilter : (Finset.Ico start stop).filter (fun time => log.isOn time = true) = (Finset.Ico start stop).filter fun _ => on = true :=
    Finset.filter_congr fun time htime => by rw [hconst time (Finset.mem_Ico.mp htime).1]
  unfold onTime
  rw [hfilter]
  cases on with
  | true =>
    rw [Finset.filter_true_of_mem fun _ _ => rfl, Int.card_Ico, if_pos rfl]
    omega
  | false => simp

theorem onTime_self (log : SignalLog) (time : Int) : log.onTime time time = 0 := by simp [onTime]

theorem onTime_nonneg (log : SignalLog) (start stop : Int) : 0 ≤ log.onTime start stop := Int.natCast_nonneg _

theorem onTime_le (log : SignalLog) (h : start ≤ stop) : log.onTime start stop ≤ stop - start := by
  have hcard := Finset.card_filter_le (Finset.Ico start stop) fun time => log.isOn time = true
  rw [Int.card_Ico] at hcard
  unfold onTime
  omega

end SignalLog

end Statsd
