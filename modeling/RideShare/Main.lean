import RideShare.Journal.Folder
import RideShare.Chance.Twister
import RideShare.Simulation.Report

/-!
# The command line

Runs a simulation of the usual scenario with random dice, and prints what comes of it. With an
argument, every record is also written to files whose names begin with that argument.
-/

open RideShare RideShare.Journal RideShare.Chance

namespace RideShare.Simulation

/-- Carry out what the library left to carry out. A file that cannot be opened is passed over. -/
def perform (emitted : Array Emission) : IO Unit := do
  for emission in emitted do
    match emission with
    | .out text => IO.print text
    | .err text => IO.eprint text
    | .append path line =>
      try
        let file ← IO.FS.Handle.mk path .append
        file.putStrLn line
      catch _ => pure ()
    | _ => pure ()

/-- The time, as a reading. -/
def readClock : IO Reading := return some (← IO.monoNanosNow)

/-- Let a producer give its commands, each served before the next, and read the clock when a command
is given and when it is done. -/
def serveTimed {σ : Type} (dice : Dice σ) (scenario : Scenario) (i : Nat) (floor : Floor) :
    IO Floor := do
  let mut floor := floor
  let mut producer := Demand.Producer.start dice scenario i.toUInt32
  for _ in [0:scenario.commandsPerProducer.toNat] do
    let sent ← readClock
    let desk := floor.desk
    let (next, command?, served, emitted) :=
      turn dice scenario i sent producer
        { floor with desk := { desk with engine := { desk.engine with clock := sent } } }
    perform emitted
    producer := next
    floor := served
    let done ← readClock
    if let some command := command? then
      floor := floor.complete i command done
  return floor

/-- Run the program, and give its exit code. A scenario without a seed gets a random one. -/
def runTimed (scenario : Scenario) (base? : Option String) : IO UInt32 := do
  let random ← IO.rand 1 (1 <<< 63)
  let seed := if scenario.seed == 0 then random.toUInt64 else scenario.seed
  let scenario := { scenario with seed }
  IO.print banner
  if let some base := base? then IO.print (recordingText base)
  let opening := setUp Twister.dice scenario { engine base? with clock := ← readClock } {}
  if opening.verdict ≠ .accepted then
    IO.eprint (rejectedText opening.verdict)
    return (exitCode false).toUInt32
  perform opening.emitted.toArray
  IO.print (startText scenario)
  let start ← IO.monoMsNow
  let mut floor := opening.floor
  for i in [0:scenario.producers.toNat] do
    floor ← serveTimed Twister.dice scenario i floor
  let elapsed := (← IO.monoMsNow) - start
  let (text, success) := closing scenario floor (some elapsed)
  IO.print text
  return (exitCode success).toUInt32

end RideShare.Simulation

def main (arguments : List String) : IO UInt32 :=
  RideShare.Simulation.runTimed {} arguments.head?
