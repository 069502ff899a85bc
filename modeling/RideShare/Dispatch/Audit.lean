import RideShare.Dispatch

/-!
# The audit

The books hold the same facts in several places. The audit recomputes each from another place and
says whether they agree: the seats taken on every vehicle from the parties that ride on it, the
condition of every party from the backlog and the seating, and the sizes waiting from the backlog
itself. It trusts none of the places, and so is meaningful for books in any state.
-/

namespace RideShare.Dispatch

/-- Seats by vehicle. -/
abbrev SeatTally := Std.HashMap UInt64 UInt64

/-- The seats taken on each vehicle by the riding parties listed, on top of a tally. There is no
such tally if one of them is not in the books, or also waits. -/
def seatsTaken? (books : Dispatch) : SeatTally → List (UInt64 × UInt64) → Option SeatTally
  | tally, [] => some tally
  | tally, (id, vehicle) :: rest =>
    match books.roster[id]? with
    | none => none
    | some size =>
      if books.backlog.contains id then none
      else books.seatsTaken? (tally.insert vehicle (tally.getD vehicle 0 + size.toUInt64)) rest

/-- Strike every vehicle listed from the tally, provided that it lacks exactly the seats tallied for
it. -/
def strikeVehicles? : SeatTally → List Slot → Option SeatTally
  | tally, [] => some tally
  | tally, slot :: rest =>
    if slot.vehicle.capacity < slot.available then none
    else
      let missing := slot.vehicle.capacity - slot.available
      if tally.getD slot.vehicle.id 0 != missing.toUInt64 then none
      else strikeVehicles? (tally.erase slot.vehicle.id) rest

/-- Whether a waiting party is in the books with its size, and does not ride. -/
def waitsProperly (books : Dispatch) (party : Party) : Bool :=
  books.roster[party.id]? == some party.size && !books.seating.contains party.id

/-- How many parties of each size are listed. -/
def histogramOf (parties : List Party) : Array Nat :=
  parties.foldl (fun counts party ↦ counts.modify party.size.toNat (· + 1))
    (Array.replicate seatLevels 0)

/-- Whether the backlog's count of each size is that of the parties listed. -/
def histogramAgrees (books : Dispatch) (parties : List Party) : Bool :=
  let counts := histogramOf parties
  (List.range seatLevels).all fun size ↦
    counts.getD size 0 == books.backlog.countOfSize size.toUInt32

/-- The audit, with the riding parties listed in some order. -/
def auditWith (books : Dispatch) (riding : List (UInt64 × UInt64)) : Bool :=
  match books.seatsTaken? ∅ riding with
  | none => false
  | some taken =>
    match strikeVehicles? taken books.fleet.slots.toList with
    | none => false
    | some unaccounted =>
      let waiting := books.waiting
      unaccounted.isEmpty && waiting.all books.waitsProperly && books.histogramAgrees waiting
        && books.roster.size == books.seating.size + waiting.length

/-- Whether the books agree with themselves. -/
def audit (books : Dispatch) : Bool := books.auditWith books.seating.entries

end RideShare.Dispatch
