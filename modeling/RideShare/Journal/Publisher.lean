import RideShare.Journal.Text

/-!
# Publishers

A publisher is told every record and does something with it: it keeps it, prints it, writes it to a
file, or asks about the party it names. What it does is an *emission*, a value that an outer layer
carries out. A publisher may also refuse a record with an error.

A publisher that asks needs somebody to ask. It is given a `Host`, whose state it may change only
by asking.
-/

namespace RideShare.Journal

/-- What can be asked about the business while a record is published. -/
structure Host (σ : Type) where
  /-- What time it is. -/
  now : Reading := none
  /-- Where a party is. Being asked may leave a trace in the state. -/
  locate : σ → UInt64 → Whereabouts × σ
  /-- How many seats a vehicle has free. -/
  availableSeats : σ → UInt64 → UInt32
  /-- How many parties wait. -/
  waitingCount : σ → Nat

/-- A host that knows nobody. -/
def Host.nobody : Host Unit where
  locate _ _ := (.unknown, ())
  availableSeats _ _ := 0
  waitingCount _ := 0

/-- What a publisher does with a record. -/
inductive Emission where
  /-- It keeps the record. -/
  | kept (publisher : Nat) (record : Record)
  /-- It found a party. -/
  | located (publisher : Nat) (found : Whereabouts)
  /-- It learned a vehicle's free seats. -/
  | seats (publisher : Nat) (available : UInt32)
  /-- It learned the number of waiting parties. -/
  | waiting (publisher : Nat) (count : Nat)
  /-- Text for the standard output. -/
  | out (text : String)
  /-- Text for the standard error. -/
  | err (text : String)
  /-- A line to append to a file. -/
  | append (path : String) (line : String)
  deriving DecidableEq

/-- The kinds of publishers. -/
inductive Publisher where
  /-- Keeps every record. -/
  | recorder
  /-- Asks the host: about the party of an event, the vehicle of a report, and on a reset about the
  number of waiting parties. -/
  | locator
  /-- Refuses events of certain kinds, and perhaps reports and resets; all else it passes over. -/
  | failing (message : String) (kinds : List EventKind) (onReport onReset : Bool)
  /-- Prints resets and conflicts, and everything if it is verbose. -/
  | console (verbose : Bool)
  /-- Appends a row to one of three files with a common base name. -/
  | file (base : String)
  deriving DecidableEq

namespace Publisher

/-- Whether a publisher refuses a record. -/
def refuses : Publisher → Record → Bool
  | failing _ kinds _ _, .event event => kinds.contains event.kind
  | failing _ _ onReport _, .report _ => onReport
  | failing _ _ _ onReset, .reset _ => onReset
  | _, _ => false

/-- The error with which a publisher refuses a record. It reads as far as the publisher's message
has no null character. -/
def failure? (publisher : Publisher) (record : Record) : Option String :=
  match publisher with
  | failing message .. => if publisher.refuses record then some (upToNull message) else none
  | _ => none

/-- What the console prints for a record. -/
def print? (verbose : Bool) : Record → Option Emission
  | .reset reset => some (.out (reset.line ++ "\n"))
  | .event event =>
    if event.kind = .reserveConflict then some (.err (event.conflictLine ++ "\n"))
    else if verbose then some (.out (event.line ++ "\n"))
    else none
  | .report report => if verbose then some (.out (report.line ++ "\n")) else none

/-- What the publisher with the given number does with a record it does not refuse. -/
def react {σ : Type} (host : Host σ) (number : Nat) (state : σ) (record : Record) :
    Publisher → Option Emission × σ
  | recorder => (some (.kept number record), state)
  | locator =>
    match record with
    | .event event =>
      let (found, state) := host.locate state event.party.id
      (some (.located number found), state)
    | .report report => (some (.seats number (host.availableSeats state report.vehicle)), state)
    | .reset _ => (some (.waiting number (host.waitingCount state)), state)
  | failing .. => (none, state)
  | console verbose => (print? verbose record, state)
  | file base => (some (.append (base ++ record.fileEnding) (record.csv host.now)), state)

end Publisher

end RideShare.Journal
