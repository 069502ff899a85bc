import RideShare.Reallocation

/-!
# Dispatch

The books of the business: the fleet, the backlog, who rides where, and the size of every party
that is known at all. A party is unknown, waits, or rides; it goes from waiting to riding when a
vehicle with enough seats gets some back, and never the other way.

Every operation returns the books as they are afterwards, its answer, and the records of what
happened. Whether anybody is told of the records makes no difference to the books.
-/

namespace RideShare

open Journal

/-- How often each thing happened. The counts are words and wrap around. -/
structure Counters where
  /-- Journeys asked for. -/
  journeysRequested : UInt64 := 0
  /-- Parties seated on request. -/
  assignedOnRequest : UInt64 := 0
  /-- Parties that had to wait. -/
  queued : UInt64 := 0
  /-- Requests by parties that ride or wait already. -/
  duplicatesRejected : UInt64 := 0
  /-- Requests of a size no party has. -/
  invalidSizesRejected : UInt64 := 0
  /-- Parties that left a vehicle. -/
  dropoffsRiding : UInt64 := 0
  /-- Parties that left the backlog unseated. -/
  dropoffsWaiting : UInt64 := 0
  /-- Journeys ended that nobody had asked for. -/
  dropoffsNotFound : UInt64 := 0
  /-- Passes over the backlog. -/
  reallocationPasses : UInt64 := 0
  /-- Parties seated from the backlog. -/
  groupsReallocated : UInt64 := 0
  /-- Chosen parties that could not be seated. -/
  reserveConflicts : UInt64 := 0
  /-- Resets of the fleet. -/
  resets : UInt64 := 0
  /-- Questions where a party is. -/
  locates : UInt64 := 0
  deriving DecidableEq, Inhabited

/-- The counts in the order in which they are reported. -/
def Counters.toList (c : Counters) : List UInt64 :=
  [c.journeysRequested, c.assignedOnRequest, c.queued, c.duplicatesRejected,
    c.invalidSizesRejected, c.dropoffsRiding, c.dropoffsWaiting, c.dropoffsNotFound,
    c.reallocationPasses, c.groupsReallocated, c.reserveConflicts, c.resets, c.locates]

/-- The books. -/
structure Dispatch where
  /-- The vehicles. -/
  fleet : Fleet := {}
  /-- Who waits. -/
  backlog : Backlog
  /-- Who rides where. -/
  seating : Seating := {}
  /-- The size of every party that rides or waits. -/
  roster : Std.HashMap UInt64 UInt32 := ∅
  /-- How often each thing happened. -/
  counters : Counters := {}

namespace Dispatch

/-- What an operation leaves and answers. -/
structure Step (α : Type) where
  /-- The books afterwards. -/
  books : Dispatch
  /-- The answer. -/
  answer : α
  /-- The records of what happened. -/
  batch : Batch := {}
  /-- The parties found in the books, but neither riding nor waiting. -/
  strays : List UInt64 := []

/-- Books without vehicles and parties, with room for `reserve` waiting parties. -/
def ofReserve (reserve : Nat) : Dispatch := { backlog := Backlog.ofReserve reserve }

/-! ## Operations -/

/-- Forget all parties and load a new fleet. -/
def reset (books : Dispatch) (vehicles : List Vehicle) : Step Unit :=
  let fleet := Fleet.ofVehicles vehicles
  let note := { vehicles := fleet.size.toUInt64, seats := fleet.totalSeats.toUInt64 }
  { books :=
      { fleet
        backlog := books.backlog.clear
        counters := { books.counters with resets := books.counters.resets + 1 } }
    answer := ()
    batch := { resets := [note] } }

/-- Seat a new party on the vehicle that fits best, or let it wait. A party of a size that no party
has, and one that rides or waits already, is turned away. -/
def requestJourney (books : Dispatch) (party : Party) : Step JourneyResult :=
  match books with
  | { fleet, backlog, seating, roster, counters } =>
    let counters := { counters with journeysRequested := counters.journeysRequested + 1 }
    if !isSeatCount party.size then
      let counters := { counters with invalidSizesRejected := counters.invalidSizesRejected + 1 }
      { books := { fleet, backlog, seating, roster, counters }, answer := .invalidGroupSize }
    else if roster.contains party.id || backlog.contains party.id then
      let counters := { counters with duplicatesRejected := counters.duplicatesRejected + 1 }
      { books := { fleet, backlog, seating, roster, counters }
        answer := .duplicateGroup
        batch := { events := [{ kind := .duplicateRejected, party }] } }
    else
      let (vehicle?, fleet) := fleet.reserve party.size
      match vehicle? with
      | some vehicle =>
        { books :=
            { fleet
              backlog
              seating := seating.set party.id vehicle
              roster := roster.insert party.id party.size
              counters :=
                { counters with assignedOnRequest := counters.assignedOnRequest + 1 } }
          answer := .assigned
          batch := { events := [{ kind := .assigned, party, vehicle }] } }
      | none =>
        let (joined, backlog) := backlog.enqueue party
        if joined then
          { books :=
              { fleet
                backlog
                seating
                roster := roster.insert party.id party.size
                counters := { counters with queued := counters.queued + 1 } }
            answer := .queued
            batch := { events := [{ kind := .queued, party }] } }
        else
          let counters := { counters with duplicatesRejected := counters.duplicatesRejected + 1 }
          { books := { fleet, backlog, seating, roster, counters }
            answer := .duplicateGroup
            batch := { events := [{ kind := .duplicateRejected, party }] } }

/-- Forget a party. If it was riding, its seats are offered to the backlog. -/
def dropoff (books : Dispatch) (id : UInt64) : Step DropoffResult :=
  match books with
  | { fleet, backlog, seating, roster, counters } =>
    match roster[id]? with
    | none =>
      let counters := { counters with dropoffsNotFound := counters.dropoffsNotFound + 1 }
      { books := { fleet, backlog, seating, roster, counters }
        answer := .groupNotFound
        batch := { events := [{ kind := .notFound, party := { id, size := 0 } }] } }
    | some size =>
      let party : Party := { id, size }
      match seating.get? id with
      | some vehicle =>
        let (pass, report) := reallocate fleet (seating.erase id) backlog vehicle size
        { books :=
            { fleet := pass.fleet
              backlog := pass.backlog
              seating := pass.seating
              roster := roster.erase id
              counters :=
                { counters with
                  dropoffsRiding := counters.dropoffsRiding + 1
                  reserveConflicts := counters.reserveConflicts + pass.conflicts
                  reallocationPasses := counters.reallocationPasses + 1
                  groupsReallocated := counters.groupsReallocated + report.assignedCount } }
          answer := .droppedOff
          batch :=
            { events := { kind := .droppedOff, party, vehicle } :: pass.events.toList
              reports := [report] } }
      | none =>
        let (left, backlog) := backlog.dequeue id
        { books :=
            { fleet
              backlog
              seating
              roster := roster.erase id
              counters := { counters with dropoffsWaiting := counters.dropoffsWaiting + 1 } }
          answer := .leftQueue
          batch := { events := [{ kind := .leftQueue, party }] }
          -- A party that neither rides nor waits is forgotten all the same.
          strays := if left then [] else [id] }

/-! ## Queries -/

/-- Where a party is. -/
def whereabouts (books : Dispatch) (id : UInt64) : Whereabouts :=
  if books.roster.contains id then
    match books.seating.get? id with
    | none => .waiting
    | some vehicle => .riding ((books.fleet.get? vehicle).getD { id := vehicle, capacity := 0 })
  else
    .unknown

/-- Ask where a party is. The question is counted. -/
def locate (books : Dispatch) (id : UInt64) : Whereabouts × Dispatch :=
  let found := books.whereabouts id
  let counters := books.counters
  (found, { books with counters := { counters with locates := counters.locates + 1 } })

/-- The number of waiting parties. -/
def waitingCount (books : Dispatch) : Nat := books.backlog.size

/-- The number of riding parties. -/
def ridingCount (books : Dispatch) : Nat := books.seating.size

/-- The number of parties in the books. -/
def groupCount (books : Dispatch) : Nat := books.roster.size

/-- The number of vehicles. -/
def vehicleCount (books : Dispatch) : Nat := books.fleet.size

/-- The free seats of a vehicle; none if it is unknown. -/
def availableSeats (books : Dispatch) (vehicle : UInt64) : UInt32 := books.fleet.availableOf vehicle

/-- The waiting parties, the oldest first. -/
def waiting (books : Dispatch) : List Party := books.backlog.toList

end Dispatch

end RideShare
