import RideShare.Percentile
import RideShare.Simulation

/-!
# The simulation program

What the program prints around a simulation: a banner, the scenario, the results over all
processors, the engine's and the checks' own reports, and whether the books are in order. The
program succeeds if they are, and if every command was handled.

Its parts are given one by one for an outer layer that reads a clock in between; `run` puts them
together without one, and its readings are left out.
-/

namespace RideShare.Simulation

open Journal Chance

/-- The first lines. -/
def banner : String :=
  "C++20 Car Pooling Allocation Engine\n===================================\n\n"

/-- The line that says where records are written to. -/
def recordingText (base : String) : String := s!"Recording journey events to {base}_*.csv\n"

/-- The line that says what is about to happen. -/
def startText (scenario : Scenario) : String :=
  s!"Starting simulation with {scenario.producers} producers"
    ++ s!" x {scenario.commandsPerProducer} commands...\n\n"

/-- The line that says why nothing is about to happen. -/
def rejectedText (verdict : Verdict) : String :=
  s!"ERROR: generated fleet rejected: {verdict.name}\n"

/-- Who is told: the console, and a recording if there is a name for it. -/
def publishers (base? : Option String) : List Publisher :=
  .console false :: (base?.map Publisher.file).toList

/-- The engine of the program, before the fleet is loaded. -/
def engine (base? : Option String) : Engine :=
  (Engine.ofReserve 1024).setManager (some (Manager.ofPublishers (publishers base?)))

/-! ## Results -/

/-- The tallies of all processors taken together. -/
structure Totals where
  /-- Commands handled. -/
  processed : UInt64 := 0
  /-- Commands refused by the checks. -/
  rejected : UInt64 := 0
  /-- Parties seated on request. -/
  assigned : UInt64 := 0
  /-- Parties that had to wait. -/
  queued : UInt64 := 0
  /-- Parties that left a vehicle. -/
  droppedOff : UInt64 := 0
  /-- Parties that left the backlog. -/
  leftQueue : UInt64 := 0
  /-- Parties found riding. -/
  locatedRiding : UInt64 := 0
  /-- Parties found waiting. -/
  locatedWaiting : UInt64 := 0
  /-- How long each command took. -/
  latencies : Array Reading := #[]

/-- Add a tally. -/
def Totals.add (totals : Totals) (tally : Tally) : Totals where
  processed := totals.processed + tally.processed
  rejected := totals.rejected + tally.rejected
  assigned := totals.assigned + tally.countJourney .assigned
  queued := totals.queued + tally.countJourney .queued
  droppedOff := totals.droppedOff + tally.countDropoff .droppedOff
  leftQueue := totals.leftQueue + tally.countDropoff .leftQueue
  locatedRiding := totals.locatedRiding + tally.countLocate .assigned
  locatedWaiting := totals.locatedWaiting + tally.countLocate .waiting
  latencies := totals.latencies ++ tally.latencies

/-- The tallies of a floor taken together. -/
def Totals.ofFloor (floor : Floor) : Totals :=
  floor.processors.foldl (fun totals processor ↦ totals.add processor.tally) {}

/-- How many commands were handled in a second, if it is known how many milliseconds it took. Less
than one counts as one. -/
def commandsPerSecond (processed : UInt64) (elapsed : Reading) : Reading :=
  elapsed.map fun ms ↦
    (processed.toFloat * 1000.0 / Float.ofInt (max ms 1)).toUInt64.toNat

/-- The totals, as text. -/
def Totals.text (totals : Totals) (elapsed : Reading) : String :=
  String.join
    [ "\n=== SIMULATION RESULTS ===\n"
    , s!"Total run time: {elapsed.durationText} ms\n"
    , s!"Commands processed: {totals.processed}\n"
    , s!"Commands per second: {(commandsPerSecond totals.processed elapsed).durationText}\n"
    , s!"Commands rejected by validation: {totals.rejected}\n"
    , s!"Journeys assigned on request: {totals.assigned}\n"
    , s!"Journeys queued: {totals.queued}\n"
    , s!"Dropoffs from a vehicle: {totals.droppedOff}\n"
    , s!"Dropoffs from the queue: {totals.leftQueue}\n"
    , s!"Locates riding / waiting: {totals.locatedRiding} / {totals.locatedWaiting}\n" ]

/-- How a check came out. -/
def passText (passed : Bool) : String := if passed then "PASS" else "FAIL"

/-- The last lines, and whether the program succeeds. -/
def closing (scenario : Scenario) (floor : Floor) (elapsed : Reading) : String × Bool :=
  let totals := Totals.ofFloor floor
  let consistent := floor.desk.engine.books.audit
  let handled := totals.processed == scenario.producers.toUInt64 * scenario.commandsPerProducer
  let text := String.join
    [ totals.text elapsed
    , latencyText totals.latencies
    , floor.desk.engine.statisticsText
    , (floor.desk.admission.map Admission.statisticsText).getD ""
    , "=== CORRECTNESS CHECK ===\n"
    , s!"Seat accounting and queue state: {passText consistent}\n"
    , s!"All commands handled: {passText handled}\n" ]
  (text, consistent && handled)

/-! ## The whole program -/

/-- The code with which the program exits. -/
def exitCode (success : Bool) : Nat := if success then 0 else 1

/-- What a program leaves: what there is to carry out, and its exit code. -/
structure Exit where
  /-- What there is to carry out, in order. -/
  emitted : Array Emission
  /-- 0 for success, 1 for failure. -/
  code : Nat

/-- Run the program on a scenario, without a clock. -/
def run {σ : Type} (dice : Dice σ) (scenario : Scenario) (base? : Option String) : Exit :=
  let first := Emission.out banner :: (base?.map fun base ↦ .out (recordingText base)).toList
  let opening := setUp dice scenario (engine base?) {}
  if opening.verdict = .accepted then
    let before := first ++ opening.emitted ++ [.out (startText scenario)]
    let (floor, emitted) := serveAll dice scenario opening.floor
    let (text, success) := closing scenario floor none
    { emitted := before.toArray ++ emitted ++ #[.out text], code := exitCode success }
  else
    { emitted := (first ++ [Emission.err (rejectedText opening.verdict)]).toArray
      code := exitCode false }

end RideShare.Simulation
