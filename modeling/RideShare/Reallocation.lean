import RideShare.Backlog
import RideShare.Fleet
import RideShare.Journal.Record
import RideShare.Seating

/-!
# Filling a vehicle from the backlog

When a vehicle gets seats back, the waiting parties are offered them in the order of their
arrival: everybody who fits in what is left is taken, and everybody else keeps their place.

This is done in two steps. `choose` plans and touches nothing; its walk may stop as soon as nobody
waiting is small enough. `Pass.seatAll` then seats the chosen ones one by one, and takes each step
back that turns out not to be possible.
-/

namespace RideShare

open Journal

/-- The parties taken from those waiting on `seats` seats, in order. The walk ends where no seat is
left, or where `anyFits` denies that any waiting party fits on those that are. -/
def choose (anyFits : UInt32 → Bool) : UInt32 → List Party → List Party
  | _, [] => []
  | seats, party :: rest =>
    if seats == 0 || !anyFits seats then []
    else if party.size ≤ seats then party :: choose anyFits (seats - party.size) rest
    else choose anyFits seats rest

namespace Backlog

/-- The choice among the parties from the node `start` on, at most `bound` of them. Nodes behind the
end of the walk are not looked at. -/
def chooseFrom (backlog : Backlog) : (bound : Nat) → (start : Option Nat) → UInt32 → List Party
  | 0, _, _ => []
  | _ + 1, none, _ => []
  | bound + 1, some i, seats =>
    if seats == 0 || !backlog.anyFits seats then []
    else
      let party := backlog.pool.get i
      let next := backlog.pool.links.next? i
      if party.size ≤ seats then party :: backlog.chooseFrom bound next (seats - party.size)
      else backlog.chooseFrom bound next seats

/-- The choice among all waiting parties. -/
def choose (backlog : Backlog) (seats : UInt32) : List Party :=
  backlog.chooseFrom backlog.pool.links.size backlog.chain.first seats

theorem chooseFrom_eq (backlog : Backlog) (bound : Nat) (start : Option Nat) (seats : UInt32) :
    backlog.chooseFrom bound start seats = RideShare.choose backlog.anyFits seats
      ((LinkTable.walk backlog.pool.links.next? bound start #[]).toList.map backlog.pool.get) := by
  induction bound generalizing start seats with
  | zero => rfl
  | succ bound ih =>
    cases start with
    | none => rfl
    | some i =>
      simp only [LinkTable.toList_walk_some, List.map_cons, chooseFrom, RideShare.choose, ih]

/-- Walking along the nodes chooses the parties that a walk along the list of them would. -/
theorem choose_eq (backlog : Backlog) (seats : UInt32) :
    backlog.choose seats = RideShare.choose backlog.anyFits seats backlog.toList :=
  backlog.chooseFrom_eq _ _ _

end Backlog

/-- The people in all of the parties. -/
def people (parties : List Party) : UInt32 := parties.foldl (fun sum party ↦ sum + party.size) 0

/-- What a pass over the chosen parties works on, and what it has done so far. -/
structure Pass where
  /-- The vehicles. -/
  fleet : Fleet
  /-- Who rides where. -/
  seating : Seating
  /-- Who waits. -/
  backlog : Backlog
  /-- The parties seated so far. -/
  seated : Array Party := #[]
  /-- The events so far. -/
  events : Array Event := #[]
  /-- How often a chosen party could not be seated. -/
  conflicts : UInt64 := 0

namespace Pass

/-- Seat the parties on the vehicle in turn. The pass ends at the first one for whom the seats are
gone; one that waits no more gets no seat, and the next one has its turn. -/
def seatAll (vehicle : UInt64) : Pass → List Party → Pass
  | pass, [] => pass
  | { fleet, seating, backlog, seated, events, conflicts }, party :: rest =>
    let (reserved, fleet) := fleet.tryReserve vehicle party.size
    if reserved then
      let seating := seating.set party.id vehicle
      let (left, backlog) := backlog.dequeue party.id
      if left then
        seatAll vehicle
          { fleet, seating, backlog
            seated := seated.push party
            events := events.push { kind := .reallocated, party, vehicle }
            conflicts }
          rest
      else
        seatAll vehicle
          { fleet := (fleet.release vehicle party.size).2
            seating := seating.erase party.id
            backlog
            seated
            events := events.push { kind := .reserveConflict, party, vehicle }
            conflicts := conflicts + 1 }
          rest
    else
      { fleet, seating, backlog, seated
        events := events.push { kind := .reserveConflict, party, vehicle }
        conflicts := conflicts + 1 }

end Pass

/-- Give `seats` seats back to a vehicle and fill it from the backlog. -/
def reallocate (fleet : Fleet) (seating : Seating) (backlog : Backlog) (vehicle : UInt64)
    (seats : UInt32) : Pass × Report :=
  let (free, fleet) := fleet.release vehicle seats
  let waiting := backlog.size
  let chosen := backlog.choose free
  let pass := Pass.seatAll vehicle { fleet, seating, backlog } chosen
  let assigned := pass.seated.toList
  let report :=
    { vehicle
      seatsReleased := seats
      totalFree := free
      waiting := waiting.toUInt64
      selected := chosen.length.toUInt64
      assignedCount := assigned.length.toUInt64
      people := people assigned
      remaining := pass.fleet.availableOf vehicle
      assigned }
  (pass, report)

end RideShare
