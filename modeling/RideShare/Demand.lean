import RideShare.Chance.Twister
import RideShare.Command

/-!
# Random demand

A scenario says how large a business is and what is asked of it; dice say what happens in detail.
Several producers make demands side by side. Each hands out ids of its own range, and asks only
about parties it has requested and not yet dropped off.
-/

namespace RideShare

open Chance

/-- How large a business is, and what is asked of it. -/
structure Scenario where
  /-- The number of producers. -/
  producers : UInt32 := 4
  /-- How many commands each of them gives. -/
  commandsPerProducer : UInt64 := 200000
  /-- The number of vehicles. -/
  fleetSize : UInt64 := 1000
  /-- The fewest seats of a vehicle. -/
  minVehicleCapacity : UInt32 := 4
  /-- The most seats of a vehicle. -/
  maxVehicleCapacity : UInt32 := maxSeats
  /-- Of a hundred commands, how many request a journey. -/
  journeyPercent : UInt32 := 50
  /-- Of a hundred commands, how many end a journey. The rest ask where a party is. -/
  dropoffPercent : UInt32 := 35
  /-- Decides the dice. -/
  seed : UInt64 := 0
  deriving DecidableEq, Inhabited

namespace Demand

/-- The seed of the dice for the fleet is that of the scenario; the producers' follow it. -/
def producerSeed (scenario : Scenario) (producer : UInt32) : UInt64 :=
  scenario.seed + (producer + 1).toUInt64

/-- The first id a producer hands out. -/
def firstGroupId (producer : UInt32) : UInt64 := (producer.toUInt64 + 1) <<< 40

/-! ## The fleet -/

/-- Vehicles with the ids from `id` on, each with a capacity from `low` on that the dice choose
among `range`. -/
def rollVehicles {σ : Type} (dice : Dice σ) (low range : Nat) :
    (count : Nat) → (id : UInt64) → σ → Array Vehicle → Array Vehicle
  | 0, _, _, vehicles => vehicles
  | count + 1, id, s, vehicles =>
    let (extra, s) := dice.roll s range
    rollVehicles dice low range count (id + 1) s
      (vehicles.push { id, capacity := (low + extra).toUInt32 })

/-- The vehicles of a scenario. Bounds on their capacity that no vehicle can have are drawn in, and
an upper bound below the lower one is raised to it. -/
def fleet {σ : Type} (dice : Dice σ) (scenario : Scenario) : List Vehicle :=
  let low := min (max scenario.minVehicleCapacity minSeats) maxSeats
  let high := min (max scenario.maxVehicleCapacity low) maxSeats
  (rollVehicles dice low.toNat (high.toNat - low.toNat + 1) scenario.fleetSize.toNat 1
    (dice.ofSeed scenario.seed) #[]).toList

/-! ## The commands -/

/-- A producer at work. -/
structure Producer (σ : Type) where
  /-- The state of its dice. -/
  source : σ
  /-- The parties requested and not yet dropped off. -/
  active : Array UInt64 := #[]
  /-- The next id it hands out. -/
  nextId : UInt64

namespace Producer

variable {σ : Type}

/-- A producer before its first command. -/
def start (dice : Dice σ) (scenario : Scenario) (producer : UInt32) : Producer σ :=
  { source := dice.ofSeed (producerSeed scenario producer), nextId := firstGroupId producer }

/-- Drop an element of an array, and let the last one take its place. -/
def swapRemove (ids : Array UInt64) (i : Nat) : Array UInt64 :=
  let last := ids.getD (ids.size - 1) 0
  (ids.setIfInBounds i last).pop

/-- Give one command. Without a party to ask about, it is a journey whatever the dice say. -/
def step (dice : Dice σ) (scenario : Scenario) (producer : Producer σ) : Command × Producer σ :=
  match producer with
  | { source, active, nextId } =>
    let (action, source) := dice.roll source 100
    if action < scenario.journeyPercent.toNat || active.isEmpty then
      let (extra, source) := dice.roll source maxSeats.toNat
      let size := minSeats + extra.toUInt32
      ({ kind := .journey, party := { id := nextId, size } },
        { source, active := active.push nextId, nextId := nextId + 1 })
    else
      let (i, source) := dice.roll source active.size
      let party : Party := { id := active.getD i 0, size := 0 }
      -- The two shares are words, and so is their sum.
      if action < (scenario.journeyPercent + scenario.dropoffPercent).toNat then
        ({ kind := .dropoff, party }, { source, active := swapRemove active i, nextId })
      else
        ({ kind := .locate, party }, { source, active, nextId })

/-- Give `count` commands, behind those given before. -/
def give (dice : Dice σ) (scenario : Scenario) :
    (count : Nat) → Producer σ → Array Command → Array Command × Producer σ
  | 0, producer, given => (given, producer)
  | count + 1, producer, given =>
    let (command, producer) := producer.step dice scenario
    producer.give dice scenario count (given.push command)

end Producer

/-- All commands of a producer. -/
def commands {σ : Type} (dice : Dice σ) (scenario : Scenario) (producer : UInt32) : List Command :=
  ((Producer.start dice scenario producer).give dice scenario
    scenario.commandsPerProducer.toNat #[]).1.toList

end Demand

end RideShare
