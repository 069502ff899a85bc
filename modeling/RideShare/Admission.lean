import RideShare.Basic
import RideShare.Decimal.Fixed
import Std.Data.HashSet

/-!
# Admission

Requests are checked before they come near the books: fleets by size and vehicle by vehicle,
journeys by id and size, everything else by id. The limits can be narrowed and never widened
beyond what the books can hold, so that whatever is admitted can be carried out.

Every check is counted, and every refusal under its reason. A check that is switched off admits
everything, and still counts.
-/

namespace RideShare

/-- The answer to a check. -/
inductive Verdict where
  /-- Nothing is wrong. -/
  | accepted
  /-- A vehicle has no id. -/
  | invalidVehicleId
  /-- A vehicle has too few or too many seats. -/
  | vehicleCapacity
  /-- A vehicle has the id of an earlier one. -/
  | duplicateVehicleId
  /-- There are too many vehicles. -/
  | fleetTooLarge
  /-- A party has no id. -/
  | invalidGroupId
  /-- A party has too few or too many people. -/
  | groupSize
  deriving DecidableEq, Inhabited

namespace Verdict

/-- All verdicts, by ascending number. -/
def all : List Verdict :=
  [accepted, invalidVehicleId, vehicleCapacity, duplicateVehicleId, fleetTooLarge, invalidGroupId,
    groupSize]

/-- The number of a verdict. -/
def code : Verdict → Nat
  | accepted => 0
  | invalidVehicleId => 1
  | vehicleCapacity => 2
  | duplicateVehicleId => 3
  | fleetTooLarge => 4
  | invalidGroupId => 5
  | groupSize => 6

/-- The name of a verdict. -/
def name : Verdict → String
  | accepted => "ACCEPTED"
  | invalidVehicleId => "INVALID_VEHICLE_ID"
  | vehicleCapacity => "VEHICLE_CAPACITY"
  | duplicateVehicleId => "DUPLICATE_VEHICLE_ID"
  | fleetTooLarge => "FLEET_TOO_LARGE"
  | invalidGroupId => "INVALID_GROUP_ID"
  | groupSize => "GROUP_SIZE"

/-- The verdict with the given number. -/
def ofCode? (n : Int) : Option Verdict := if n < 0 then none else all[n.toNat]?

/-- The name of the verdict with the given number. -/
def nameOfCode (n : Int) : String := ((ofCode? n).map name).getD "UNKNOWN"

@[simp] theorem code_inj {v w : Verdict} : v.code = w.code ↔ v = w := by
  cases v <;> cases w <;> decide

theorem code_lt (v : Verdict) : v.code < all.length := by cases v <;> decide

@[simp] theorem ofCode?_code (v : Verdict) : ofCode? v.code = some v := by cases v <;> rfl

end Verdict

/-- What is admitted. -/
structure Limits where
  /-- The fewest seats of a vehicle. -/
  minVehicleCapacity : UInt32 := minSeats
  /-- The most seats of a vehicle. -/
  maxVehicleCapacity : UInt32 := maxSeats
  /-- The most vehicles of a fleet. -/
  maxFleetSize : UInt64 := 100000
  /-- The fewest people of a party. -/
  minGroupSize : UInt32 := minSeats
  /-- The most people of a party. -/
  maxGroupSize : UInt32 := maxSeats
  deriving DecidableEq, Inhabited

namespace Limits

/-- The limits as far as the books can hold what they admit. -/
def clamped (limits : Limits) : Limits :=
  { limits with
    minVehicleCapacity := max limits.minVehicleCapacity minSeats
    maxVehicleCapacity := min limits.maxVehicleCapacity maxSeats
    minGroupSize := max limits.minGroupSize minSeats
    maxGroupSize := min limits.maxGroupSize maxSeats }

theorem clamped_def (limits : Limits) : limits.clamped =
    { minVehicleCapacity := max limits.minVehicleCapacity 1
      maxVehicleCapacity := min limits.maxVehicleCapacity 6
      maxFleetSize := limits.maxFleetSize
      minGroupSize := max limits.minGroupSize 1
      maxGroupSize := min limits.maxGroupSize 6 } :=
  rfl

/-- Whether a vehicle may have this many seats. -/
def admitsCapacity (limits : Limits) (capacity : UInt32) : Bool :=
  limits.minVehicleCapacity ≤ capacity && capacity ≤ limits.maxVehicleCapacity

/-- Whether a party may have this many people. -/
def admitsSize (limits : Limits) (size : UInt32) : Bool :=
  limits.minGroupSize ≤ size && size ≤ limits.maxGroupSize

/-- The verdict on vehicles that follow those with the ids in `seen`: what is wrong with the first
one with which something is wrong. -/
def judgeVehicles (limits : Limits) : Std.HashSet UInt64 → List Vehicle → Verdict
  | _, [] => .accepted
  | seen, vehicle :: rest =>
    if vehicle.id == noVehicle then .invalidVehicleId
    else if !limits.admitsCapacity vehicle.capacity then .vehicleCapacity
    else if seen.contains vehicle.id then .duplicateVehicleId
    else limits.judgeVehicles (seen.insert vehicle.id) rest

/-- The verdict on a fleet. Its size is looked at before its vehicles. -/
def judgeFleet (limits : Limits) (vehicles : List Vehicle) : Verdict :=
  if limits.maxFleetSize.toNat < vehicles.length then .fleetTooLarge
  else limits.judgeVehicles ∅ vehicles

/-- The verdict on a request that names a party. -/
def judgeId (_ : Limits) (id : UInt64) : Verdict := if id == 0 then .invalidGroupId else .accepted

/-- The verdict on a request for a journey. The id is looked at before the size. -/
def judgeJourney (limits : Limits) (party : Party) : Verdict :=
  if party.id == 0 then .invalidGroupId
  else if limits.admitsSize party.size then .accepted
  else .groupSize

end Limits

/-- The limits in force, and the account of all checks. -/
structure Admission where
  /-- The limits, clamped. -/
  limits : Limits := {}
  /-- Whether anything is refused at all. -/
  enabled : Bool := true
  /-- How many checks were made. -/
  checked : UInt64 := 0
  /-- How many requests were refused. -/
  rejected : UInt64 := 0
  /-- How many were refused for each reason, by its number. -/
  reasons : Array UInt64 := Array.replicate Verdict.all.length 0
  deriving DecidableEq

namespace Admission

/-- Put other limits in force. -/
def updateLimits (admission : Admission) (limits : Limits) : Admission :=
  { admission with limits := limits.clamped }

/-- A fresh account with the given limits. -/
def ofLimits (limits : Limits) : Admission := ({} : Admission).updateLimits limits

/-- Refuse from now on, or admit everything. -/
def setEnabled (admission : Admission) (enabled : Bool) : Admission := { admission with enabled }

/-- Count a verdict, and return it. -/
def record (admission : Admission) (verdict : Verdict) : Verdict × Admission :=
  match verdict with
  | .accepted => (.accepted, admission)
  | reason =>
    (reason,
      { admission with
        rejected := admission.rejected + 1
        reasons := admission.reasons.modify reason.code (· + 1) })

/-- Make a check: count it, and give the verdict of `judge` unless checks are switched off. -/
def check (admission : Admission) (judge : Limits → Verdict) : Verdict × Admission :=
  let admission := { admission with checked := admission.checked + 1 }
  if admission.enabled then admission.record (judge admission.limits) else (.accepted, admission)

/-- Check a fleet. -/
def checkFleet (admission : Admission) (vehicles : List Vehicle) : Verdict × Admission :=
  admission.check (·.judgeFleet vehicles)

/-- Check a request for a journey. -/
def checkJourney (admission : Admission) (party : Party) : Verdict × Admission :=
  admission.check (·.judgeJourney party)

/-- Check a request that only names a party. -/
def checkId (admission : Admission) (id : UInt64) : Verdict × Admission :=
  admission.check (·.judgeId id)

/-- How often the verdict with the given number was a reason to refuse. -/
def countOfCode (admission : Admission) (n : Int) : UInt64 :=
  match Verdict.ofCode? n with
  | none => 0
  | some verdict => admission.reasons.getD verdict.code 0

/-- The share of checks that ended in a refusal, in percent. -/
def rejectionRate (admission : Admission) : Float :=
  if admission.checked == 0 then 0.0
  else admission.rejected.toFloat / admission.checked.toFloat * 100.0

/-- The lines on the reasons for which anything was refused. -/
def reasonLines (admission : Admission) : List String :=
  Verdict.all.tail.filterMap fun verdict ↦
    let count := admission.reasons.getD verdict.code 0
    if 0 < count then some s!"  {verdict.name}: {count}\n" else none

/-- The limits and the account, as text. -/
def statisticsText (admission : Admission) : String :=
  let limits := admission.limits
  let state := if admission.enabled then "YES" else "NO"
  let rate := Decimal.fixed 2 admission.rejectionRate
  String.join
    ([ "\n=== REQUEST VALIDATION STATISTICS ===\n"
     , s!"Enabled: {state}\n"
     , s!"Vehicle capacity: {limits.minVehicleCapacity}..{limits.maxVehicleCapacity}\n"
     , s!"Group size: {limits.minGroupSize}..{limits.maxGroupSize}\n"
     , s!"Total Checked: {admission.checked}\n"
     , s!"Total Rejected: {admission.rejected}\n"
     , s!"Rejection Rate: {rate}%\n"
     , "\nRejection Reasons:\n" ] ++ admission.reasonLines ++ ["\n"])

end Admission

end RideShare
