import Std.Data.HashMap

/-!
# Who rides where

The vehicle of every riding party, by the party's id.
-/

namespace RideShare

/-- The vehicle each riding party is on. -/
structure Seating where
  /-- The vehicle's id, by the party's id. -/
  vehicles : Std.HashMap UInt64 UInt64 := ∅

namespace Seating

/-- The vehicle a party rides on. -/
def get? (seating : Seating) (party : UInt64) : Option UInt64 := seating.vehicles[party]?

/-- Whether a party rides. -/
def contains (seating : Seating) (party : UInt64) : Bool := seating.vehicles.contains party

/-- The number of riding parties. -/
def size (seating : Seating) : Nat := seating.vehicles.size

/-- Let a party ride on a vehicle, whatever it did before. -/
def set (seating : Seating) (party vehicle : UInt64) : Seating :=
  { seating with vehicles := seating.vehicles.insert party vehicle }

/-- Let a party ride no more. -/
def erase (seating : Seating) (party : UInt64) : Seating :=
  { seating with vehicles := seating.vehicles.erase party }

/-- The riding parties with their vehicles, in no particular order. -/
def entries (seating : Seating) : List (UInt64 × UInt64) := seating.vehicles.toList

/-- The riding parties with their vehicles, by ascending id of the party. -/
def sortedEntries (seating : Seating) : List (UInt64 × UInt64) :=
  seating.entries.mergeSort fun a b ↦ a.1 ≤ b.1

/-! ## What each operation changes -/

@[simp] theorem get?_empty (party : UInt64) : get? {} party = none := by
  simp [get?]

@[simp] theorem entries_empty : entries {} = [] := by
  simp [entries]

@[simp] theorem get?_set (seating : Seating) (party vehicle other : UInt64) :
    (seating.set party vehicle).get? other =
      if party = other then some vehicle else seating.get? other := by
  simp [set, get?, Std.HashMap.getElem?_insert]

@[simp] theorem get?_erase (seating : Seating) (party other : UInt64) :
    (seating.erase party).get? other =
      if party = other then none else seating.get? other := by
  simp [erase, get?, Std.HashMap.getElem?_erase]

theorem contains_eq_isSome (seating : Seating) (party : UInt64) :
    seating.contains party = (seating.get? party).isSome := by
  simp [contains, get?]

/-- The entries are the parties that ride, each with its vehicle. -/
@[simp] theorem mem_entries_iff (seating : Seating) (party vehicle : UInt64) :
    (party, vehicle) ∈ seating.entries ↔ seating.get? party = some vehicle := by
  simp [entries, get?, Std.HashMap.mem_toList_iff_getElem?_eq_some]

@[simp] theorem length_entries (seating : Seating) : seating.entries.length = seating.size :=
  Std.HashMap.length_toList

end Seating

end RideShare
