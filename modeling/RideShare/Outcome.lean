import RideShare.Basic

/-!
# Outcomes of requests

What a party is told when it asks for a journey, ends one, or is looked for. Each outcome has a
number, by which tallies are kept, and a name, by which it is reported; a number beyond the last
outcome is reported as unknown.
-/

namespace RideShare

/-- The name reported for a number that stands for nothing. -/
def unknownName : String := "UNKNOWN"

/-- The answer to a request for a journey. -/
inductive JourneyResult where
  /-- The party was seated at once. -/
  | assigned
  /-- No vehicle had room, so the party waits. -/
  | queued
  /-- The party rides or waits already. -/
  | duplicateGroup
  /-- No party has that many people. -/
  | invalidGroupSize
  deriving DecidableEq, Inhabited

namespace JourneyResult

/-- All results, by ascending number. -/
def all : List JourneyResult := [assigned, queued, duplicateGroup, invalidGroupSize]

/-- The number of a result. -/
def code : JourneyResult → Nat
  | assigned => 0
  | queued => 1
  | duplicateGroup => 2
  | invalidGroupSize => 3

/-- The name of a result. -/
def name : JourneyResult → String
  | assigned => "ASSIGNED"
  | queued => "QUEUED"
  | duplicateGroup => "DUPLICATE_GROUP"
  | invalidGroupSize => "INVALID_GROUP_SIZE"

/-- The name of the result with the given number. -/
def nameOfCode (n : Nat) : String := (all[n]?.map name).getD unknownName

@[simp] theorem code_inj {r s : JourneyResult} : r.code = s.code ↔ r = s := by
  cases r <;> cases s <;> decide

theorem code_lt (r : JourneyResult) : r.code < all.length := by cases r <;> decide

@[simp] theorem nameOfCode_code (r : JourneyResult) : nameOfCode r.code = r.name := by
  cases r <;> rfl

end JourneyResult

/-- The answer to the end of a journey. -/
inductive DropoffResult where
  /-- The party was riding; its seats went back to its vehicle. -/
  | droppedOff
  /-- The party was still waiting. -/
  | leftQueue
  /-- There is no such party. -/
  | groupNotFound
  deriving DecidableEq, Inhabited

namespace DropoffResult

/-- All results, by ascending number. -/
def all : List DropoffResult := [droppedOff, leftQueue, groupNotFound]

/-- The number of a result. -/
def code : DropoffResult → Nat
  | droppedOff => 0
  | leftQueue => 1
  | groupNotFound => 2

/-- The name of a result. -/
def name : DropoffResult → String
  | droppedOff => "DROPPED_OFF"
  | leftQueue => "LEFT_QUEUE"
  | groupNotFound => "GROUP_NOT_FOUND"

/-- The name of the result with the given number. -/
def nameOfCode (n : Nat) : String := (all[n]?.map name).getD unknownName

@[simp] theorem code_inj {r s : DropoffResult} : r.code = s.code ↔ r = s := by
  cases r <;> cases s <;> decide

theorem code_lt (r : DropoffResult) : r.code < all.length := by cases r <;> decide

@[simp] theorem nameOfCode_code (r : DropoffResult) : nameOfCode r.code = r.name := by
  cases r <;> rfl

end DropoffResult

/-- The condition a party is found in. -/
inductive LocateStatus where
  /-- The party rides. -/
  | assigned
  /-- The party waits. -/
  | waiting
  /-- There is no such party. -/
  | groupNotFound
  deriving DecidableEq, Inhabited

namespace LocateStatus

/-- All conditions, by ascending number. -/
def all : List LocateStatus := [assigned, waiting, groupNotFound]

/-- The number of a condition. -/
def code : LocateStatus → Nat
  | assigned => 0
  | waiting => 1
  | groupNotFound => 2

/-- The name of a condition. -/
def name : LocateStatus → String
  | assigned => "ASSIGNED"
  | waiting => "WAITING"
  | groupNotFound => "GROUP_NOT_FOUND"

/-- The name of the condition with the given number. -/
def nameOfCode (n : Nat) : String := (all[n]?.map name).getD unknownName

@[simp] theorem code_inj {s t : LocateStatus} : s.code = t.code ↔ s = t := by
  cases s <;> cases t <;> decide

theorem code_lt (s : LocateStatus) : s.code < all.length := by cases s <;> decide

@[simp] theorem nameOfCode_code (s : LocateStatus) : nameOfCode s.code = s.name := by
  cases s <;> rfl

end LocateStatus

/-- Where a party is. -/
inductive Whereabouts where
  /-- The party rides on a vehicle. -/
  | riding (vehicle : Vehicle)
  /-- The party waits for a vehicle. -/
  | waiting
  /-- There is no such party. -/
  | unknown
  deriving DecidableEq, Inhabited

namespace Whereabouts

/-- The condition a party is in, without its vehicle. -/
def status : Whereabouts → LocateStatus
  | riding _ => .assigned
  | waiting => .waiting
  | unknown => .groupNotFound

/-- The vehicle the party rides on. -/
def vehicle? : Whereabouts → Option Vehicle
  | riding vehicle => some vehicle
  | _ => none

end Whereabouts

end RideShare
