import Mathlib.Algebra.Ring.Nat
import RideShare.Seating

/-!
# The people on a vehicle

The seating knows who rides where, and the roster how many people a party has. `Seating.peopleOn`
puts the two together: it adds up the sizes of the parties on one vehicle.

The entries of the seating come in no particular order, so what happens to the sum is told by a
permutation: a party that takes a seat is one entry more, and one that leaves is one entry less.
-/

namespace RideShare.Seating

/-- The people in the parties that ride on a vehicle, if parties have the sizes given. -/
def peopleOn (seating : Seating) (size : UInt64 → Nat) (vehicle : UInt64) : Nat :=
  ((seating.entries.filter fun entry ↦ entry.2 = vehicle).map fun entry ↦ size entry.1).sum

variable {seating seating' : Seating} {party vehicle : UInt64}

theorem nodup_entries (seating : Seating) : seating.entries.Nodup :=
  Std.HashMap.distinct_keys_toList.imp fun hne heq ↦ by simp [heq] at hne

/-- Seatings that differ in one rider differ in one entry. -/
theorem entries_perm (hnew : seating'.get? party = none)
    (h : ∀ other,
      seating.get? other = if party = other then some vehicle else seating'.get? other) :
    seating.entries.Perm ((party, vehicle) :: seating'.entries) := by
  have hnotMem : (party, vehicle) ∉ seating'.entries := by
    rw [mem_entries_iff, hnew]
    simp
  refine (List.perm_ext_iff_of_nodup seating.nodup_entries
    (List.nodup_cons.mpr ⟨hnotMem, seating'.nodup_entries⟩)).mpr fun ⟨other, vehicle'⟩ ↦ ?_
  rw [mem_entries_iff, h, List.mem_cons, mem_entries_iff, Prod.mk.injEq]
  by_cases hother : party = other
  · subst hother
    simp [hnew, eq_comm]
  · simp [hother, Ne.symm hother]

/-- A party that leaves is one entry less. -/
theorem entries_perm_erase (h : seating.get? party = some vehicle) :
    seating.entries.Perm ((party, vehicle) :: (seating.erase party).entries) := by
  refine entries_perm ?_ fun other ↦ ?_
  · simp
  · rw [get?_erase]
    split
    next hother => rw [← hother, h]
    next => rfl

theorem size_set (hnew : seating.get? party = none) (vehicle : UInt64) :
    (seating.set party vehicle).size = seating.size + 1 := by
  rw [← length_entries, (entries_perm hnew (seating.get?_set party vehicle)).length_eq,
    List.length_cons, length_entries]

theorem size_erase (h : seating.get? party = some vehicle) :
    (seating.erase party).size + 1 = seating.size := by
  rw [← length_entries, ← length_entries, (entries_perm_erase h).length_eq, List.length_cons]

/-- The sum does not depend on the order of the entries. -/
private theorem peopleOn_eq_of_perm (size : UInt64 → Nat)
    (h : seating.entries.Perm ((party, vehicle) :: seating'.entries)) (other : UInt64) :
    seating.peopleOn size other =
      seating'.peopleOn size other + if vehicle = other then size party else 0 := by
  have hsum := ((h.filter fun entry ↦ entry.2 = other).map fun entry ↦ size entry.1).sum_nat
  rw [peopleOn, hsum, List.filter_cons, peopleOn]
  split <;> simp_all [Nat.add_comm]

/-- A party that takes a seat is added to the people on its vehicle. -/
theorem peopleOn_set (size : UInt64 → Nat) (hnew : seating.get? party = none) (other : UInt64) :
    (seating.set party vehicle).peopleOn size other =
      seating.peopleOn size other + if vehicle = other then size party else 0 :=
  peopleOn_eq_of_perm size (entries_perm hnew (seating.get?_set party vehicle)) other

/-- A party that leaves is taken from the people on its vehicle. -/
theorem peopleOn_erase (size : UInt64 → Nat) (h : seating.get? party = some vehicle)
    (other : UInt64) :
    seating.peopleOn size other =
      (seating.erase party).peopleOn size other + if vehicle = other then size party else 0 :=
  peopleOn_eq_of_perm size (entries_perm_erase h) other

/-- Only the sizes of riding parties matter. -/
theorem peopleOn_congr {size size' : UInt64 → Nat}
    (h : ∀ party, (seating.get? party).isSome → size party = size' party)
    (vehicle : UInt64) : seating.peopleOn size vehicle = seating.peopleOn size' vehicle := by
  refine congrArg List.sum (List.map_congr_left fun entry hentry ↦ h entry.1 ?_)
  rw [(seating.mem_entries_iff entry.1 entry.2).mp (List.mem_filter.mp hentry).1]
  rfl

@[simp] theorem peopleOn_empty (size : UInt64 → Nat) (vehicle : UInt64) :
    peopleOn {} size vehicle = 0 := by
  simp [peopleOn]

end RideShare.Seating
