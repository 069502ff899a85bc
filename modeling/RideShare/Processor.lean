import RideShare.Admission
import RideShare.Command
import RideShare.Engine

/-!
# Processing commands

A processor takes the commands off its own ring, one after the other, lets each be checked, has it
carried out, and keeps a tally of what came of it. Several processors may work at one *desk*, that
is, on the same engine behind the same checks.

`Processor.run` takes commands in batches. How large a batch is hangs on what the reader of the ring
happens to have seen, and makes no difference to what is done.
-/

namespace RideShare

open Journal

/-- What processors share: the engine, and the checks in front of it, if any. -/
structure Desk where
  /-- The engine. -/
  engine : Engine
  /-- The checks. -/
  admission : Option Admission := none

/-- What came of the commands a processor has handled. -/
structure Tally where
  /-- Commands handled. -/
  processed : UInt64 := 0
  /-- Commands refused by the checks. -/
  rejected : UInt64 := 0
  /-- Journeys by the number of their result. -/
  journeys : Array UInt64 := Array.replicate JourneyResult.all.length 0
  /-- Dropoffs by the number of their result. -/
  dropoffs : Array UInt64 := Array.replicate DropoffResult.all.length 0
  /-- Questions where a party is, by the number of the condition it was in. -/
  locates : Array UInt64 := Array.replicate LocateStatus.all.length 0
  /-- For each command handled, how long it took from being given to being done. -/
  latencies : Array Reading := #[]
  deriving Inhabited

namespace Tally

/-- How many journeys had this result. -/
def countJourney (tally : Tally) (result : JourneyResult) : UInt64 :=
  tally.journeys.getD result.code 0

/-- How many dropoffs had this result. -/
def countDropoff (tally : Tally) (result : DropoffResult) : UInt64 :=
  tally.dropoffs.getD result.code 0

/-- How many parties were found in this condition. -/
def countLocate (tally : Tally) (status : LocateStatus) : UInt64 :=
  tally.locates.getD status.code 0

/-- Tally the result of a journey. -/
def addJourney (tally : Tally) (result : JourneyResult) : Tally :=
  { tally with journeys := tally.journeys.modify result.code (· + 1) }

/-- Tally the result of a dropoff. -/
def addDropoff (tally : Tally) (result : DropoffResult) : Tally :=
  { tally with dropoffs := tally.dropoffs.modify result.code (· + 1) }

/-- Tally where a party was found. -/
def addLocate (tally : Tally) (found : Whereabouts) : Tally :=
  { tally with locates := tally.locates.modify found.status.code (· + 1) }

end Tally

/-- The time from one reading to another. -/
def Reading.since (done given : Reading) : Reading :=
  match done, given with
  | some done, some given => some (done - given)
  | _, _ => none

/-- A processor at work: its tally, the desk, what there is to carry out, and the error of a
publisher that stopped it. -/
structure Work where
  /-- The tally so far. -/
  tally : Tally := {}
  /-- The desk. -/
  desk : Desk
  /-- What there is to carry out, in order. -/
  emitted : Array Emission := #[]
  /-- The error of a publisher. -/
  failure : Option String := none

namespace Work

/-- Let a request be checked, and say whether it may pass. One that may not is tallied. -/
def check (work : Work) (judge : Admission → Verdict × Admission) : Bool × Work :=
  match work with
  | { tally, desk := { engine, admission }, emitted, failure } =>
    match admission with
    | none => (true, { tally, desk := { engine, admission }, emitted, failure })
    | some admission =>
      let (verdict, admission) := judge admission
      let desk := { engine, admission := some admission }
      if verdict = .accepted then (true, { tally, desk, emitted, failure })
      else
        let tally := { tally with rejected := tally.rejected + 1 }
        (false, { tally, desk, emitted, failure })

/-- Have an operation of the engine carried out, and tally its answer. The error of a publisher is
kept in place of an answer. -/
def carryOut {α : Type} (work : Work) (operation : Engine → Engine.Reply α)
    (count : Tally → α → Tally) : Work :=
  match work with
  | { tally, desk := { engine, admission }, emitted, failure } =>
    let reply := operation engine
    let desk := { engine := reply.engine, admission }
    let emitted := emitted ++ reply.emissions
    match reply.answer with
    | .ok answer => { tally := count tally answer, desk, emitted, failure }
    | .error message => { tally, desk, emitted, failure := some message }

/-- Let a command be checked, carried out and tallied. A command of an unknown kind asks for
nothing. -/
def handle (work : Work) (command : Command) : Work :=
  match command.kind with
  | .journey =>
    let (admitted, work) := work.check (·.checkJourney command.party)
    if admitted then work.carryOut (·.requestJourney command.party) Tally.addJourney else work
  | .dropoff =>
    let (admitted, work) := work.check (·.checkId command.party.id)
    if admitted then work.carryOut (·.dropoff command.party.id) Tally.addDropoff else work
  | .locate =>
    let (admitted, work) := work.check (·.checkId command.party.id)
    if admitted then work.carryOut (·.locateReply command.party.id) Tally.addLocate else work
  | .other _ => work

/-- Count a command as handled, at the given time. -/
def complete (work : Work) (command : Command) (now : Reading) : Work :=
  { work with
    tally :=
      { work.tally with
        processed := work.tally.processed + 1
        latencies := work.tally.latencies.push (now.since command.time) } }

/-- Handle a command. One that a publisher's error stopped is not counted. -/
def process (work : Work) (command : Command) : Work :=
  let work := work.handle command
  if work.failure.isSome then work else work.complete command none

/-- Handle commands in turn, up to the first that is stopped. -/
def processAll (work : Work) : List Command → Work
  | [] => work
  | command :: rest =>
    let work := work.process command
    if work.failure.isSome then work else work.processAll rest

/-- How many commands are taken off a ring at a time. -/
def batchSize : Nat := 64

/-- Handle up to `left` commands off a ring, in at most `bound` batches. -/
def runBatches : (bound : Nat) → Ring Command → Work → (left : Nat) → Ring Command × Work
  | 0, ring, work, _ => (ring, work)
  | bound + 1, ring, work, left =>
    if left == 0 || work.failure.isSome then
      (ring, work)
    else
      let (batch, ring) := ring.dequeueBatch (min batchSize left)
      if batch.isEmpty then (ring, work)
      else runBatches bound ring (work.processAll batch) (left - batch.length)

/-- Handle the `count` oldest commands on a ring, or all if there are fewer. No batch is empty while
there are commands, so `count` batches are enough. -/
def run (work : Work) (ring : Ring Command) (count : Nat) : Ring Command × Work :=
  runBatches count ring work count

end Work

/-! ## The floor -/

/-- One processor: its ring, and its tally. -/
structure Processor where
  /-- The commands it has yet to take. -/
  ring : Ring Command := Ring.forCommands
  /-- What came of those it has handled. -/
  tally : Tally := {}
  deriving Inhabited

/-- A desk, and the processors that work at it. -/
structure Floor where
  /-- The desk. -/
  desk : Desk
  /-- The processors, by number. -/
  processors : Array Processor

namespace Floor

/-- A desk with `count` processors that have done nothing so far. -/
def ofDesk (desk : Desk) (count : Nat) : Floor :=
  { desk, processors := Array.replicate count {} }

/-- A processor, by number. -/
def processor (floor : Floor) (i : Nat) : Processor := floor.processors.getD i default

/-- Let processor `i` put a command on its ring, and say whether there was room. -/
def enqueue (floor : Floor) (i : Nat) (command : Command) : Bool × Floor :=
  match floor with
  | { desk, processors } =>
    match processors.getD i default with
    | { ring, tally } =>
      -- The array lets go of the processor, so that its ring is changed in place.
      let processors := processors.setIfInBounds i default
      let (stored, ring) := ring.enqueue command
      (stored, { desk, processors := processors.setIfInBounds i { ring, tally } })

/-- Let processor `i` work, and give what there is to carry out and the error that stopped it. -/
def work (floor : Floor) (i : Nat) (shift : Work → Ring Command → Ring Command × Work) :
    Floor × Array Emission × Option String :=
  match floor with
  | { desk, processors } =>
    match processors.getD i default with
    | { ring, tally } =>
      let processors := processors.setIfInBounds i default
      let (ring, { tally, desk, emitted, failure }) := shift { tally, desk } ring
      ({ desk, processors := processors.setIfInBounds i { ring, tally } }, emitted, failure)

/-- Let processor `i` handle one command that did not come by its ring. -/
def process (floor : Floor) (i : Nat) (command : Command) :
    Floor × Array Emission × Option String :=
  floor.work i fun work ring ↦ (ring, work.process command)

/-- Let processor `i` take the next command off its ring and have it carried out. It is counted as
handled by `complete`, when the outer layer knows the time. -/
def handleNext (floor : Floor) (i : Nat) : Option Command × Floor × Array Emission :=
  match floor with
  | { desk, processors } =>
    match processors.getD i default with
    | { ring, tally } =>
      let processors := processors.setIfInBounds i default
      let (command?, ring) := ring.dequeue
      let work : Work := { tally, desk }
      let { tally, desk, emitted, .. } := match command? with
        | none => work
        | some command => work.handle command
      (command?, { desk, processors := processors.setIfInBounds i { ring, tally } }, emitted)

/-- Let processor `i` count a command as handled. -/
def complete (floor : Floor) (i : Nat) (command : Command) (now : Reading) : Floor :=
  (floor.work i fun work ring ↦ (ring, work.complete command now)).1

/-- Let processor `i` handle `count` commands off its ring. -/
def run (floor : Floor) (i count : Nat) : Floor × Array Emission × Option String :=
  floor.work i fun work ring ↦ work.run ring count

end Floor

end RideShare
