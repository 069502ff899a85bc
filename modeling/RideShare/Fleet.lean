import RideShare.Basic
import RideShare.Bucket
import Std.Data.HashMap

/-!
# The fleet

A party is seated on the vehicle whose free seats exceed its size by least: large gaps are kept
for large parties. To find that vehicle without looking at all of them, the vehicles are kept in
buckets by their number of free seats, and the search takes the first non-empty bucket that is
large enough. Taking or freeing seats moves one vehicle to the end of another bucket.

Within a bucket the order is that of arrival, so among equally good vehicles the one whose free
seats changed longest ago comes first. An operation that leaves the number of free seats as it was
leaves the vehicle in its place.
-/

namespace RideShare

/-- A loaded vehicle and the number of its seats that are free. -/
structure Slot where
  /-- The vehicle as it was loaded. -/
  vehicle : Vehicle
  /-- How many of its seats are free. -/
  available : UInt32
  deriving DecidableEq, Inhabited

/-- The loaded vehicles, in buckets by their number of free seats. -/
structure Fleet where
  /-- The vehicles, in the order in which they were loaded. -/
  slots : Array Slot := #[]
  /-- The links between vehicles of one bucket. -/
  links : LinkTable := #[]
  /-- Where in `slots` the vehicle with a given id is. -/
  index : Std.HashMap UInt64 Nat := ∅
  /-- The bucket for each number of free seats, from none to `maxSeats`. -/
  buckets : Array Bucket := Array.replicate seatLevels {}
  /-- The number of seats of all vehicles, free or not. -/
  totalSeats : Nat := 0

namespace Fleet

/-- The bucket of the vehicles with `available` free seats. -/
def bucket (fleet : Fleet) (available : Nat) : Bucket := fleet.buckets.getD available {}

/-! ## Loading -/

/-- Load one more vehicle, with all its seats free. A vehicle without an id, with too few or too
many seats, or with the id of a vehicle loaded before is passed over. -/
def load (fleet : Fleet) (vehicle : Vehicle) : Fleet :=
  if vehicle.id == noVehicle || !isSeatCount vehicle.capacity
      || fleet.index.contains vehicle.id then
    fleet
  else
    match fleet with
    | { slots, links, index, buckets, totalSeats } =>
      let i := slots.size
      let level := vehicle.capacity.toNat
      let (entered, links) := (buckets.getD level {}).push (links.push {}) i
      { slots := slots.push { vehicle, available := vehicle.capacity }
        links
        index := index.insert vehicle.id i
        buckets := buckets.setIfInBounds level entered
        totalSeats := totalSeats + level }

/-- The fleet of the given vehicles, loaded in the order of the list. -/
def ofVehicles (vehicles : List Vehicle) : Fleet := vehicles.foldl load {}

/-! ## Taking and freeing seats -/

/-- Set the free seats of the vehicle at `i`. Unless their number stays the same, the vehicle goes
to the end of its new bucket. -/
def setAvailable (fleet : Fleet) (i : Nat) (available : UInt32) : Fleet :=
  if available == (fleet.slots.getD i default).available then
    fleet
  else
    match fleet with
    | { slots, links, index, buckets, totalSeats } =>
      let slot := slots.getD i default
      let (left, links) := (buckets.getD slot.available.toNat {}).remove links i
      let buckets := buckets.setIfInBounds slot.available.toNat left
      let (entered, links) := (buckets.getD available.toNat {}).push links i
      { slots := slots.setIfInBounds i { slot with available }
        links
        index
        buckets := buckets.setIfInBounds available.toNat entered
        totalSeats }

/-- The vehicle that fits `size` people best: the first one of the lowest non-empty bucket from
`size` on. -/
def bestFit? (fleet : Fleet) (size : UInt32) : Option Nat :=
  (List.range' size.toNat (seatLevels - size.toNat)).findSome? fun level ↦
    (fleet.bucket level).front?

/-- Take `size` seats on the vehicle that fits best, and name it. Without such a vehicle, or for a
size no party has, nothing changes. -/
def reserve (fleet : Fleet) (size : UInt32) : Option UInt64 × Fleet :=
  if isSeatCount size then
    match fleet.bestFit? size with
    | none => (none, fleet)
    | some i =>
      let slot := fleet.slots.getD i default
      (some slot.vehicle.id, fleet.setAvailable i (slot.available - size))
  else
    (none, fleet)

/-- Give `size` seats back to a vehicle, but no more than it is missing, and say how many it now
has free. An unknown vehicle has none. -/
def release (fleet : Fleet) (id : UInt64) (size : UInt32) : UInt32 × Fleet :=
  match fleet.index[id]? with
  | none => (0, fleet)
  | some i =>
    let slot := fleet.slots.getD i default
    -- The sum `available + size` may not fit a word; the number missing always does.
    let missing := slot.vehicle.capacity - slot.available
    let available := if missing ≤ size then slot.vehicle.capacity else slot.available + size
    (available, fleet.setAvailable i available)

/-- Take `size` seats on the given vehicle, if it has them. -/
def tryReserve (fleet : Fleet) (id : UInt64) (size : UInt32) : Bool × Fleet :=
  if size == 0 then
    (false, fleet)
  else
    match fleet.index[id]? with
    | none => (false, fleet)
    | some i =>
      let available := (fleet.slots.getD i default).available
      if available < size then (false, fleet) else (true, fleet.setAvailable i (available - size))

/-! ## Queries -/

/-- The loaded vehicle with the given id, and its free seats. -/
def find? (fleet : Fleet) (id : UInt64) : Option Slot :=
  fleet.index[id]?.map fun i ↦ fleet.slots.getD i default

/-- The loaded vehicle with the given id. -/
def get? (fleet : Fleet) (id : UInt64) : Option Vehicle := (fleet.find? id).map Slot.vehicle

/-- The free seats of a vehicle; none if it is unknown. -/
def availableOf (fleet : Fleet) (id : UInt64) : UInt32 :=
  ((fleet.find? id).map Slot.available).getD 0

/-- The number of loaded vehicles. -/
def size (fleet : Fleet) : Nat := fleet.slots.size

/-- How many vehicles have exactly `available` free seats. -/
def bucketSize (fleet : Fleet) (available : UInt32) : Nat := (fleet.bucket available.toNat).count

/-- The vehicles with `level` free seats, in the order of their bucket. -/
def bucketList (fleet : Fleet) (level : Nat) : List Slot :=
  ((fleet.bucket level).toList fleet.links).map fun i ↦ fleet.slots.getD i default

end Fleet

end RideShare
