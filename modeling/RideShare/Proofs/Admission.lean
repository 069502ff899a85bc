import Mathlib.Data.List.Nodup
import RideShare.Admission

/-!
# What is admitted

The walk over a fleet remembers the ids it has passed, and stops at the first vehicle with which
something is wrong. It gets to the end exactly if every vehicle is proper by itself, and no two of
them have the same id.

## Main statements

* `Limits.judgeFleet_eq_accepted_iff` and `Limits.judgeJourney_eq_accepted_iff`: what is admitted;
* `Admission.check_of_accepted`: an admission is counted, and changes nothing else;
* `Admission.check_cases`: what any check comes to.
-/

namespace RideShare

namespace Limits

variable {limits : Limits}

theorem judgeVehicles_eq_accepted_iff {seen : Std.HashSet UInt64} {vehicles : List Vehicle} :
    limits.judgeVehicles seen vehicles = .accepted ↔
      (∀ vehicle ∈ vehicles, vehicle.id ≠ noVehicle ∧
        limits.admitsCapacity vehicle.capacity = true ∧ vehicle.id ∉ seen) ∧
      (vehicles.map Vehicle.id).Nodup := by
  induction vehicles generalizing seen with
  | nil => simp [judgeVehicles]
  | cons vehicle rest ih =>
    rw [judgeVehicles, List.forall_mem_cons, List.map_cons, List.nodup_cons]
    by_cases hid : vehicle.id = noVehicle
    · simp [hid]
    by_cases hcapacity : limits.admitsCapacity vehicle.capacity = true
    · by_cases hseen : vehicle.id ∈ seen
      · simp [hid, hcapacity, hseen]
      · -- Those behind the vehicle must differ from those before it and from the vehicle itself.
        have hrest : (∀ other ∈ rest, other.id ≠ noVehicle ∧
              limits.admitsCapacity other.capacity = true ∧ other.id ∉ seen.insert vehicle.id) ↔
            (∀ other ∈ rest, other.id ≠ noVehicle ∧
              limits.admitsCapacity other.capacity = true ∧ other.id ∉ seen) ∧
              vehicle.id ∉ rest.map Vehicle.id := by
          simp only [Std.HashSet.mem_insert, beq_iff_eq, not_or, List.mem_map, not_exists, not_and]
          grind
        simp only [beq_iff_eq, hid, if_false, hcapacity, Bool.not_true, Bool.false_eq_true,
          Std.HashSet.contains_iff_mem, hseen, ih, hrest, ne_eq, not_false_eq_true, and_self,
          true_and, and_assoc]
    · simp [hid, hcapacity]

theorem judgeFleet_eq_accepted_iff {vehicles : List Vehicle} :
    limits.judgeFleet vehicles = .accepted ↔ vehicles.length ≤ limits.maxFleetSize.toNat ∧
      (∀ vehicle ∈ vehicles, vehicle.id ≠ noVehicle ∧
        limits.admitsCapacity vehicle.capacity = true) ∧ (vehicles.map Vehicle.id).Nodup := by
  rw [judgeFleet]
  split
  next hlarge =>
    exact iff_of_false nofun fun h ↦ Nat.not_lt.mpr h.1 hlarge
  next hsmall =>
    rw [judgeVehicles_eq_accepted_iff]
    simp [Nat.not_lt.mp hsmall]

theorem judgeId_eq_accepted_iff {id : UInt64} : limits.judgeId id = .accepted ↔ id ≠ 0 := by
  rw [judgeId]
  split <;> simp_all

theorem judgeJourney_eq_accepted_iff {party : Party} : limits.judgeJourney party = .accepted ↔
    party.id ≠ 0 ∧ limits.admitsSize party.size = true := by
  rw [judgeJourney]
  split
  next hid => simp_all
  next hid => split <;> simp_all

end Limits

theorem Admission.check_of_accepted {admission : Admission} {judge : Limits → Verdict}
    (h : judge admission.limits = .accepted) : admission.check judge =
      (.accepted, { admission with checked := admission.checked + 1 }) := by
  rw [check]
  dsimp only
  rw [h]
  split <;> rfl

/-- A check is counted. It lets the request pass, or is counted again under the reason it gives. -/
theorem Admission.check_cases (admission : Admission) (judge : Limits → Verdict) :
    admission.check judge = (.accepted, { admission with checked := admission.checked + 1 }) ∨
    judge admission.limits ≠ .accepted ∧ admission.check judge =
      (judge admission.limits,
        { admission with
          checked := admission.checked + 1
          rejected := admission.rejected + 1
          reasons := admission.reasons.modify (judge admission.limits).code (· + 1) }) := by
  rw [check]
  cases admission.enabled with
  | false => exact .inl rfl
  | true => cases judge admission.limits <;> simp [record]

end RideShare
