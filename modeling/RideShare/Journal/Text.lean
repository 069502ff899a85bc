import RideShare.Journal.Record

/-!
# Records as text

Records are written in two forms: as a line for people to read, and as a line of comma-separated
values, one file for each kind of record. Lines are given without their line break.
-/

namespace RideShare.Journal

/-- A text up to its first null character. Messages, paths and arguments are handed on as texts
that end there, so what comes after it is never read. -/
def upToNull (text : String) : String := String.ofList (text.toList.takeWhile (· != '\x00'))

/-! ## For people -/

/-- A party as it is listed in a report. -/
def partyText (party : Party) : String := s!"{party.id}:{party.size}"

/-- A reservation that failed. -/
def Event.conflictLine (event : Event) : String :=
  "WARNING: could not reserve seats during re-allocation"
    ++ s!" vehicle={event.vehicle} group={event.party.id} people={event.party.size}"

/-- What happened to a party, with the vehicle if there is one. -/
def Event.line (event : Event) : String :=
  s!"JOURNEY: {event.kind.name} group={event.party.id} people={event.party.size}"
    ++ if event.vehicle == noVehicle then "" else s!" vehicle={event.vehicle}"

/-- The parties seated by a pass; nothing if there are none. -/
def Report.partiesText (report : Report) : String :=
  if report.assigned.isEmpty then ""
  else " groups=[" ++ ", ".intercalate (report.assigned.map partyText) ++ "]"

/-- The summary of a pass over the backlog. -/
def Report.line (report : Report) : String :=
  s!"REALLOCATION: vehicle={report.vehicle} released={report.seatsReleased}"
    ++ s!" free={report.totalFree} queue={report.waiting} selected={report.selected}"
    ++ s!" assigned={report.assignedCount} people={report.people} remaining={report.remaining}"
    ++ s!" duration_ns={report.duration.durationText}" ++ report.partiesText

/-- A reset of the fleet. -/
def FleetReset.line (reset : FleetReset) : String :=
  s!"FLEET RESET: vehicles={reset.vehicles} seats={reset.seats}"
    ++ s!" duration_ns={reset.duration.durationText}"

/-! ## Comma-separated values -/

/-- One row: the columns with commas between them. -/
def row (columns : List String) : String := ",".intercalate columns

/-- Time, kind, party, size, vehicle. -/
def Event.csv (event : Event) : String :=
  row [event.time.stampText, event.kind.name, toString event.party.id, toString event.party.size,
    toString event.vehicle]

/-- The time of writing, the numbers of the report in the order of its fields, and how long the
pass took. The parties are left out. -/
def Report.csv (written : Reading) (report : Report) : String :=
  row [written.stampText, toString report.vehicle, toString report.seatsReleased,
    toString report.totalFree, toString report.waiting, toString report.selected,
    toString report.assignedCount, toString report.people, toString report.remaining,
    report.duration.durationText]

/-- The time of writing, vehicles, seats, and how long the reset took. -/
def FleetReset.csv (written : Reading) (reset : FleetReset) : String :=
  row [written.stampText, toString reset.vehicles, toString reset.seats,
    reset.duration.durationText]

/-- The row of a record. -/
def Record.csv (written : Reading) : Record → String
  | .reset r => r.csv written
  | .event e => e.csv
  | .report r => r.csv written

/-- What is appended to the base name of a recording, so that each kind of record has its file. -/
def Record.fileEnding : Record → String
  | .reset _ => "_resets.csv"
  | .event _ => "_events.csv"
  | .report _ => "_reallocations.csv"

end RideShare.Journal
