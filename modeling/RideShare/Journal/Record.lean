import RideShare.Basic
import RideShare.Outcome

/-!
# What the journal records

Three kinds of records are kept of the business: an *event* for every party that is seated, turned
away, or leaves; a *report* for every pass over the backlog after a vehicle got seats back; and a
note of every *reset* of the fleet.

Records carry readings of a clock. Which reading they carry is not decided here: an operation that
had no clock at hand leaves the reading out, and it is then written as a letter.
-/

namespace RideShare

/-- A point in time or a length of time in nanoseconds, if it was measured. -/
abbrev Reading := Option Int

namespace Reading

/-- The text of a point in time. -/
def stampText : Reading → String
  | some time => toString time
  | none => "T"

/-- The text of a length of time, or of another number that is measured. -/
def durationText : Reading → String
  | some time => toString time
  | none => "N"

end Reading

namespace Journal

/-- What happened to a party. -/
inductive EventKind where
  /-- It was seated on request. -/
  | assigned
  /-- No vehicle had room on request, so it waits. -/
  | queued
  /-- It was seated from the backlog, on a vehicle that got seats back. -/
  | reallocated
  /-- It left its vehicle. -/
  | droppedOff
  /-- It left before it was seated. -/
  | leftQueue
  /-- It asked for a journey though it rides or waits. -/
  | duplicateRejected
  /-- It ended a journey it had not asked for. -/
  | notFound
  /-- It was chosen for seats that then were gone. -/
  | reserveConflict
  /-- Something that has a number, but no name. -/
  | other (code : UInt8)
  deriving DecidableEq, Inhabited

namespace EventKind

/-- The kinds that have names, by ascending number. -/
def named : List EventKind :=
  [assigned, queued, reallocated, droppedOff, leftQueue, duplicateRejected, notFound,
    reserveConflict]

/-- The kind with the given number. -/
def ofCode (n : UInt8) : EventKind := named.getD n.toNat (other n)

/-- The name of a kind. -/
def name : EventKind → String
  | assigned => "ASSIGNED"
  | queued => "QUEUED"
  | reallocated => "REALLOCATED"
  | droppedOff => "DROPPED_OFF"
  | leftQueue => "LEFT_QUEUE"
  | duplicateRejected => "DUPLICATE_REJECTED"
  | notFound => "NOT_FOUND"
  | reserveConflict => "RESERVE_CONFLICT"
  | other _ => unknownName

end EventKind

/-- Something that happened to one party. -/
structure Event where
  /-- What happened. -/
  kind : EventKind
  /-- The party it happened to. An id nobody knows comes with size 0. -/
  party : Party
  /-- The vehicle it concerns, or `noVehicle`. -/
  vehicle : UInt64 := noVehicle
  /-- When it happened. -/
  time : Reading := none
  deriving DecidableEq, Inhabited

/-- The summary of one pass over the backlog. -/
structure Report where
  /-- The vehicle that got seats back. -/
  vehicle : UInt64 := noVehicle
  /-- How many it got back. -/
  seatsReleased : UInt32 := 0
  /-- How many it then had free. -/
  totalFree : UInt32 := 0
  /-- How many parties waited. -/
  waiting : UInt64 := 0
  /-- How many of them were chosen. -/
  selected : UInt64 := 0
  /-- How many of those were seated. -/
  assignedCount : UInt64 := 0
  /-- How many people these are. -/
  people : UInt32 := 0
  /-- How many seats stayed free. -/
  remaining : UInt32 := 0
  /-- How long it took. -/
  duration : Reading := none
  /-- The parties seated, in order. -/
  assigned : List Party := []
  deriving DecidableEq, Inhabited

/-- A new fleet was loaded and everybody else forgotten. -/
structure FleetReset where
  /-- The number of vehicles loaded. -/
  vehicles : UInt64 := 0
  /-- The number of their seats. -/
  seats : UInt64 := 0
  /-- How long it took. -/
  duration : Reading := none
  deriving DecidableEq, Inhabited

/-- One record of any kind. -/
inductive Record where
  /-- A new fleet was loaded. -/
  | reset (reset : FleetReset)
  /-- Something happened to a party. -/
  | event (event : Event)
  /-- A pass over the backlog ended. -/
  | report (report : Report)
  deriving DecidableEq, Inhabited

/-- The records of one operation, each kind in the order in which they were made. -/
structure Batch where
  /-- The resets of the fleet. -/
  resets : List FleetReset := []
  /-- The events. -/
  events : List Event := []
  /-- The reports. -/
  reports : List Report := []
  deriving DecidableEq, Inhabited

/-- All records of an operation, in the order in which they are published. -/
def Batch.records (batch : Batch) : List Record :=
  batch.resets.map .reset ++ batch.events.map .event ++ batch.reports.map .report

/-- The records of an operation that took place at the given time. -/
def Batch.stamped (batch : Batch) (time : Reading) : Batch :=
  { batch with events := batch.events.map fun event ↦ { event with time } }

end Journal

end RideShare
