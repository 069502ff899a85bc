import RideShare.Dispatch.Audit
import RideShare.Journal.Manager

/-!
# The engine

The engine is the books with somebody to tell. Each operation first runs to its end on the books;
only then are its records delivered, and a publisher that asks about the business is answered from
the books as the operation left them. A publisher that fails turns the answer into its error and
undoes nothing.
-/

namespace RideShare

open Journal

/-- The books, and the manager of those who are told what happens to them. -/
structure Engine where
  /-- The books. -/
  books : Dispatch
  /-- Who is told; nobody if absent. -/
  manager : Option Manager := none
  /-- What time it is, if a clock was read. -/
  clock : Reading := none

/-- The books answer publishers. Their questions are counted like anybody else's. -/
def Dispatch.host (now : Reading) : Host Dispatch where
  now := now
  locate := Dispatch.locate
  availableSeats := Dispatch.availableSeats
  waitingCount := Dispatch.waitingCount

namespace Engine

/-- What an operation leaves and answers, and what there is to carry out. -/
structure Reply (α : Type) where
  /-- The engine afterwards. -/
  engine : Engine
  /-- The answer, or the error of a publisher. -/
  answer : Except String α
  /-- Warnings about the books, written before anything is published. -/
  warnings : List String := []
  /-- The calls of publishers, in order. -/
  calls : List Call := []

/-- Everything there is to carry out, in order. -/
def Reply.emissions {α : Type} (reply : Reply α) : List Emission :=
  reply.warnings.map .err ++ reply.calls.filterMap Call.emission

/-- An engine without vehicles, parties and publishers, with room for `reserve` waiting parties. -/
def ofReserve (reserve : Nat) : Engine := { books := Dispatch.ofReserve reserve }

/-- The warning about a party that was in the books, but neither rode nor waited. -/
def strayWarning (id : UInt64) : String :=
  s!"WARNING: group {id} was neither riding nor waiting\n"

/-- Deliver the records of an operation on the books. -/
def publish {α : Type} (manager : Option Manager) (clock : Reading) (step : Dispatch.Step α) :
    Reply α :=
  match step with
  | { books, answer, batch, strays } =>
    let warnings := strays.map strayWarning
    match manager with
    | none => { engine := { books, manager, clock }, answer := .ok answer, warnings }
    | some m =>
      let delivery := m.deliver (Dispatch.host clock) books (batch.stamped clock).records
      { engine := { books := delivery.state, manager, clock }
        answer := match delivery.failure with
          | none => .ok answer
          | some message => .error message
        warnings
        calls := delivery.calls.toList }

/-! ## Operations -/

/-- Forget all parties and load a new fleet. -/
def reset (engine : Engine) (vehicles : List Vehicle) : Reply Unit :=
  match engine with
  | { books, manager, clock } => publish manager clock (books.reset vehicles)

/-- Seat a new party, or let it wait. -/
def requestJourney (engine : Engine) (party : Party) : Reply JourneyResult :=
  match engine with
  | { books, manager, clock } => publish manager clock (books.requestJourney party)

/-- Forget a party, and offer the seats it had to the backlog. -/
def dropoff (engine : Engine) (id : UInt64) : Reply DropoffResult :=
  match engine with
  | { books, manager, clock } => publish manager clock (books.dropoff id)

/-- Ask where a party is. -/
def locate (engine : Engine) (id : UInt64) : Whereabouts × Engine :=
  match engine with
  | { books, manager, clock } =>
    let (found, books) := books.locate id
    (found, { books, manager, clock })

/-- Ask where a party is, as an operation that tells nobody. -/
def locateReply (engine : Engine) (id : UInt64) : Reply Whereabouts :=
  let (found, engine) := engine.locate id
  { engine, answer := .ok found }

/-- Tell the publishers of this manager from now on, or nobody. -/
def setManager (engine : Engine) (manager : Option Manager) : Engine := { engine with manager }

/-! ## The report -/

/-- The counters and the numbers of parties and vehicles, as text. -/
def statisticsText (engine : Engine) : String :=
  let books := engine.books
  let c := books.counters
  String.join
    [ "\n=== ALLOCATION ENGINE STATISTICS ===\n"
    , s!"Vehicles: {books.vehicleCount}\n"
    , s!"Groups riding: {books.ridingCount}\n"
    , s!"Groups waiting: {books.waitingCount}\n"
    , s!"Resets: {c.resets}\n"
    , s!"\nJourney requests: {c.journeysRequested}\n"
    , s!"  Assigned on request: {c.assignedOnRequest}\n"
    , s!"  Queued: {c.queued}\n"
    , s!"  Duplicates rejected: {c.duplicatesRejected}\n"
    , s!"  Invalid sizes rejected: {c.invalidSizesRejected}\n"
    , "\nDropoffs:\n"
    , s!"  Riding: {c.dropoffsRiding}\n"
    , s!"  Waiting: {c.dropoffsWaiting}\n"
    , s!"  Not found: {c.dropoffsNotFound}\n"
    , s!"\nRe-allocation passes: {c.reallocationPasses}\n"
    , s!"  Groups seated from queue: {c.groupsReallocated}\n"
    , s!"  Reserve conflicts: {c.reserveConflicts}\n"
    , s!"\nLocates: {c.locates}\n" ]

end Engine

end RideShare
