import RideShare.Journal.Record

/-!
# Percentiles

The value below which a given percentage of the data lies, taken from the data themselves and not
interpolated, and what is reported of latencies in this way.
-/

namespace RideShare

open Journal

/-- Where among `count` values, in ascending order, the percentile `p` stands: at that share of the
way from the first to the last, rounded down. -/
def percentileIndex (count : Nat) (p : Float) : Nat :=
  (p / 100.0 * (count - 1).toUInt64.toFloat).toUInt64.toNat

/-- The percentile `p` of values in ascending order; 0 if there are none. -/
def percentile (sorted : Array Int) (p : Float) : Int :=
  sorted.getD (percentileIndex sorted.size p) 0

/-! ## Latencies -/

/-- The latencies in ascending order, if all of them were measured. -/
def sortedLatencies? (latencies : Array Reading) : Option (Array Int) :=
  let measured := latencies.toList.filterMap id
  if measured.length == latencies.size then some (measured.mergeSort fun a b ↦ a ≤ b).toArray
  else none

/-- Three percentiles of the latencies, as text; nothing if there are no latencies. -/
def latencyText (latencies : Array Reading) : String :=
  if latencies.isEmpty then ""
  else
    let sorted? := sortedLatencies? latencies
    let line (name : String) (p : Float) : String :=
      let latency : Reading := sorted?.map (percentile · p)
      s!"{name} latency: {latency.durationText} ns\n"
    "\n=== LATENCY STATISTICS ===\n" ++ line "P50" 50.0 ++ line "P95" 95.0 ++ line "P99" 99.0

end RideShare
