import RideShare.Demand
import RideShare.Processor

/-!
# Simulations

A simulation puts a random fleet behind the checks, lets producers make random demands, and lets a
processor for each of them serve what it demands, all at one desk. Nothing depends on how producers
and processors take turns as long as each processor follows its own producer; two ways to take
turns are given. In *rounds*, all demands are made first and the processors then serve a chunk each.
In *lockstep*, every command is served as soon as it is given.
-/

namespace RideShare

open Journal Chance

namespace Floor

/-- Let processor `i` put commands on its ring, as far as there is room. -/
def enqueueAll (floor : Floor) (i : Nat) (commands : List Command) : Floor :=
  commands.foldl (fun floor command ↦ (floor.enqueue i command).2) floor

/-- Let every producer put all its commands on the ring of its processor. -/
def fillRings {σ : Type} (dice : Dice σ) (scenario : Scenario) (floor : Floor) : Floor :=
  (List.range scenario.producers.toNat).foldl
    (fun floor i ↦ floor.enqueueAll i (Demand.commands dice scenario i.toUInt32)) floor

/-- Let every processor in turn handle up to `chunk` commands. -/
def round (floor : Floor) (chunk : Nat) : Floor :=
  (List.range floor.processors.size).foldl
    (fun floor i ↦ (floor.run i (min chunk (floor.processor i).ring.size)).1) floor

/-- Whether all commands are handled. -/
def isDone (floor : Floor) : Bool := floor.processors.all fun processor ↦ processor.ring.isEmpty

/-- One round and as many more as it takes, at most `bound`, with a look at the books after each. -/
def roundsFrom {α : Type} (chunk : Nat) (look : Dispatch → α) :
    (bound : Nat) → Floor → Array α → Floor × Array α
  | 0, floor, seen =>
    let floor := floor.round chunk
    (floor, seen.push (look floor.desk.engine.books))
  | bound + 1, floor, seen =>
    let floor := floor.round chunk
    let seen := seen.push (look floor.desk.engine.books)
    if floor.isDone then (floor, seen) else roundsFrom chunk look bound floor seen

/-- Rounds until all commands are handled, with a look at the books after each. There is at least
one round. -/
def rounds {α : Type} (floor : Floor) (chunk : Nat) (look : Dispatch → α) : Floor × Array α :=
  let commands := floor.processors.foldl (fun sum processor ↦ sum + processor.ring.size) 0
  roundsFrom chunk look commands floor #[]

end Floor

namespace Simulation

/-- The vehicles of a scenario, the verdict of the checks on them, and the floor with these vehicles
loaded, whatever the verdict. Loading may leave something to carry out. -/
structure Opening where
  /-- The vehicles. -/
  vehicles : List Vehicle
  /-- The verdict on them. -/
  verdict : Verdict
  /-- The floor. -/
  floor : Floor
  /-- What there is to carry out. -/
  emitted : List Emission

/-- Set up the floor for a scenario. -/
def setUp {σ : Type} (dice : Dice σ) (scenario : Scenario) (engine : Engine)
    (admission : Admission) : Opening :=
  let vehicles := Demand.fleet dice scenario
  let (verdict, admission) := admission.checkFleet vehicles
  let reply := engine.reset vehicles
  let desk := { engine := reply.engine, admission := some admission }
  { vehicles, verdict
    floor := Floor.ofDesk desk scenario.producers.toNat
    emitted := reply.emissions }

/-! ## Lockstep -/

/-- Let producer `i` give a command at the time `sent`, and let its processor have it carried out.
What is left to do is to count it. -/
def turn {σ : Type} (dice : Dice σ) (scenario : Scenario) (i : Nat) (sent : Reading)
    (producer : Demand.Producer σ) (floor : Floor) :
    Demand.Producer σ × Option Command × Floor × Array Emission :=
  let (command, producer) := producer.step dice scenario
  let (_, floor) := floor.enqueue i { command with time := sent }
  (producer, floor.handleNext i)

/-- Let producer `i` give `count` commands, each served before the next, without a clock. -/
def serve {σ : Type} (dice : Dice σ) (scenario : Scenario) (i : Nat) :
    (count : Nat) → Demand.Producer σ → Floor → Array Emission → Floor × Array Emission
  | 0, _, floor, emitted => (floor, emitted)
  | count + 1, producer, floor, emitted =>
    let (producer, command?, floor, more) := turn dice scenario i none producer floor
    let floor := match command? with
      | none => floor
      | some command => floor.complete i command none
    serve dice scenario i count producer floor (emitted ++ more)

/-- Serve all producers of a scenario, one after the other. -/
def serveAll {σ : Type} (dice : Dice σ) (scenario : Scenario) (floor : Floor) :
    Floor × Array Emission :=
  (List.range scenario.producers.toNat).foldl
    (fun (floor, emitted) i ↦
      serve dice scenario i scenario.commandsPerProducer.toNat
        (Demand.Producer.start dice scenario i.toUInt32) floor emitted)
    (floor, #[])

end Simulation

end RideShare
