/-!
# Parties, vehicles and seats

A *party* is a group of people who travel together and are never split; a *vehicle* offers a fixed
number of seats. Both are known to the outside by a 64-bit id and both have a size between one and
six: no party is larger than the largest vehicle, so every party can be seated by some fleet.

Ids and sizes are machine words because the requests that carry them are. A size outside the range
is therefore a value that can be asked about, and every module says what it does with one.
-/

namespace RideShare

/-- The fewest people in a party, and the fewest seats in a vehicle. -/
def minSeats : UInt32 := 1

/-- The most people in a party, and the most seats in a vehicle. -/
def maxSeats : UInt32 := 6

/-- The number of different counts of free seats a vehicle can show, none and all included. -/
def seatLevels : Nat := 7

/-- The id that stands for "no vehicle". Ids of vehicles are positive. -/
def noVehicle : UInt64 := 0

/-- A size that a party or a vehicle may have. -/
def isSeatCount (n : UInt32) : Bool := minSeats ≤ n && n ≤ maxSeats

theorem isSeatCount_iff {n : UInt32} : isSeatCount n = true ↔ 1 ≤ n.toNat ∧ n.toNat ≤ 6 := by
  simp [isSeatCount, minSeats, maxSeats, UInt32.le_iff_toNat_le]

/-- People who travel together. -/
structure Party where
  /-- The id under which the party was requested. -/
  id : UInt64
  /-- The number of people in it. -/
  size : UInt32
  deriving DecidableEq, Inhabited

/-- What the outside knows of a vehicle. How many of its seats are free is the fleet's business. -/
structure Vehicle where
  /-- The vehicle's id. -/
  id : UInt64
  /-- The number of its seats. -/
  capacity : UInt32
  deriving DecidableEq, Inhabited

end RideShare
