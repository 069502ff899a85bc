import RideShare.Proofs.Admitted
import RideShare.Proofs.Tallies

/-!
# The first fault

A fleet may have many faults, and is refused for one of them. Which one is best said without the
walk over the fleet and the ids it remembers: a fleet that is too large is refused for its size;
otherwise the first vehicle with which anything is wrong decides, and if several things are wrong
with it, a missing id comes before an improper number of seats, and that before the id of an earlier
vehicle.

The walk remembers the ids of exactly those vehicles that it has passed, and has passed no faulty
one. So it comes to the first faulty vehicle with the rest of the fleet unseen, and nothing that
follows can make a difference.

## Main statements

* `Limits.exists_judgeVehicles_drop`: how far the walk gets;
* `Limits.judgeVehicles_cases`: it comes to the end, or to the first faulty vehicle;
* `Admission.first_fault_decides`: what any check of a fleet comes to.
-/

namespace RideShare

namespace Limits

/-! ## Faults -/

/-- No vehicle may have that many seats. -/
def Excludes (limits : Limits) (capacity : UInt32) : Prop :=
  capacity < limits.minVehicleCapacity ∨ limits.maxVehicleCapacity < capacity

instance (limits : Limits) (capacity : UInt32) : Decidable (limits.Excludes capacity) :=
  inferInstanceAs (Decidable (_ ∨ _))

/-- Something is wrong with a vehicle that comes after the earlier ones. -/
def Faulty (limits : Limits) (earlier : List Vehicle) (vehicle : Vehicle) : Prop :=
  vehicle.id = noVehicle ∨ limits.Excludes vehicle.capacity ∨
    vehicle.id ∈ earlier.map Vehicle.id

instance (limits : Limits) (earlier : List Vehicle) (vehicle : Vehicle) :
    Decidable (limits.Faulty earlier vehicle) :=
  inferInstanceAs (Decidable (_ ∨ _))

/-- The reason to refuse a faulty vehicle. -/
def reasonAgainst (limits : Limits) (vehicle : Vehicle) : Verdict :=
  if vehicle.id = noVehicle then .invalidVehicleId
  else if limits.Excludes vehicle.capacity then .vehicleCapacity
  else .duplicateVehicleId

/-- Vehicle `i` of a fleet is faulty. -/
def FaultyAt (limits : Limits) (vehicles : List Vehicle) (i : Nat) : Prop :=
  ∃ vehicle, vehicles[i]? = some vehicle ∧ limits.Faulty (vehicles.take i) vehicle

/-- A vehicle is the first faulty one of a fleet. -/
structure FirstFaulty (limits : Limits) (vehicles : List Vehicle) (i : Nat) (vehicle : Vehicle) :
    Prop where
  /-- It is vehicle `i`. -/
  getElem?_eq : vehicles[i]? = some vehicle
  /-- It is faulty. -/
  faulty : limits.Faulty (vehicles.take i) vehicle
  /-- No vehicle in front of it is. -/
  not_faultyAt : ∀ j < i, ¬ limits.FaultyAt vehicles j

variable {limits : Limits} {vehicles : List Vehicle} {vehicle : Vehicle} {i : Nat}

theorem admitsCapacity_iff (limits : Limits) (capacity : UInt32) :
    limits.admitsCapacity capacity = true ↔ ¬ limits.Excludes capacity := by
  rw [admitsCapacity, Bool.and_eq_true, decide_eq_true_eq, decide_eq_true_eq, Excludes, not_or,
    UInt32.not_lt, UInt32.not_lt]

/-- The fault of a vehicle is neither no fault at all nor one of the fleet as a whole. -/
theorem reasonAgainst_ne (limits : Limits) (vehicle : Vehicle) :
    limits.reasonAgainst vehicle ≠ .accepted ∧ limits.reasonAgainst vehicle ≠ .fleetTooLarge := by
  rw [reasonAgainst]
  split
  next => exact ⟨nofun, nofun⟩
  next => split <;> exact ⟨nofun, nofun⟩

namespace FirstFaulty

theorem lt_length (h : limits.FirstFaulty vehicles i vehicle) : i < vehicles.length :=
  (List.getElem?_eq_some_iff.mp h.getElem?_eq).1

/-- Among the faulty vehicles of a fleet there is a first one. -/
theorem exists_of_faultyAt (h : ∃ i, limits.FaultyAt vehicles i) :
    ∃ i vehicle, limits.FirstFaulty vehicles i vehicle := by
  classical
  obtain ⟨vehicle, hvehicle, hfaulty⟩ := Nat.find_spec h
  exact ⟨Nat.find h, vehicle, hvehicle, hfaulty, fun j hj ↦ Nat.find_min h hj⟩

/-- It is the first one whatever comes behind it. -/
theorem append (h : limits.FirstFaulty vehicles i vehicle) (more : List Vehicle) :
    limits.FirstFaulty (vehicles ++ more) i vehicle where
  getElem?_eq := by rw [List.getElem?_append_left h.lt_length, h.getElem?_eq]
  faulty := by
    rw [List.take_append_of_le_length h.lt_length.le]
    exact h.faulty
  not_faultyAt j hj := by
    have hlt := hj.trans h.lt_length
    rw [FaultyAt, List.getElem?_append_left hlt, List.take_append_of_le_length hlt.le]
    exact h.not_faultyAt j hj

end FirstFaulty

/-! ## The walk -/

/-- The walk stops at a faulty vehicle, and remembers the id of any other. -/
theorem judgeVehicles_cons {seen : Std.HashSet UInt64} {earlier : List Vehicle}
    (hseen : ∀ id, id ∈ seen ↔ id ∈ earlier.map Vehicle.id) (vehicle : Vehicle)
    (rest : List Vehicle) : limits.judgeVehicles seen (vehicle :: rest) =
      if limits.Faulty earlier vehicle then limits.reasonAgainst vehicle
      else limits.judgeVehicles (seen.insert vehicle.id) rest := by
  have hadmits := limits.admitsCapacity_iff vehicle.capacity
  by_cases hid : vehicle.id = noVehicle
  · simp [judgeVehicles, Faulty, reasonAgainst, hid]
  by_cases hexcluded : limits.Excludes vehicle.capacity
  · simp [judgeVehicles, Faulty, reasonAgainst, hid, hexcluded, hadmits]
  · have hfaulty : limits.Faulty earlier vehicle ↔ vehicle.id ∈ seen := by
      rw [Faulty, or_iff_right hid, or_iff_right hexcluded, hseen]
    simp [judgeVehicles, reasonAgainst, hid, hexcluded, hadmits, hfaulty]

/-- The walk gets past all vehicles in front of the first faulty one, and then remembers them. -/
theorem exists_judgeVehicles_drop (hi : i ≤ vehicles.length)
    (hbefore : ∀ j < i, ¬ limits.FaultyAt vehicles j) :
    ∃ seen : Std.HashSet UInt64, (∀ id, id ∈ seen ↔ id ∈ (vehicles.take i).map Vehicle.id) ∧
      limits.judgeVehicles ∅ vehicles = limits.judgeVehicles seen (vehicles.drop i) := by
  induction i with
  | zero => exact ⟨∅, by simp, rfl⟩
  | succ i ih =>
    obtain ⟨seen, hseen, hwalk⟩ := ih (by omega) fun j hj ↦ hbefore j (by omega)
    have hproper : ¬ limits.Faulty (vehicles.take i) vehicles[i] := fun hfaulty ↦
      hbefore i (Nat.lt_succ_self i) ⟨vehicles[i], List.getElem?_eq_getElem hi, hfaulty⟩
    refine ⟨seen.insert vehicles[i].id, fun id ↦ ?_, ?_⟩
    · rw [Std.HashSet.mem_insert, beq_iff_eq, hseen, List.take_add_one,
        List.getElem?_eq_getElem hi, Option.toList_some, List.map_append, List.mem_append,
        List.map_singleton, List.mem_singleton, or_comm, eq_comm]
    · rw [hwalk, List.drop_eq_getElem_cons hi, judgeVehicles_cons hseen, if_neg hproper]

theorem judgeVehicles_of_faultless (h : ∀ i, ¬ limits.FaultyAt vehicles i) :
    limits.judgeVehicles ∅ vehicles = .accepted := by
  obtain ⟨seen, -, hwalk⟩ := exists_judgeVehicles_drop (Nat.le_refl _) fun i _ ↦ h i
  rw [hwalk, List.drop_length, judgeVehicles]

theorem FirstFaulty.judgeVehicles_eq (h : limits.FirstFaulty vehicles i vehicle) :
    limits.judgeVehicles ∅ vehicles = limits.reasonAgainst vehicle := by
  obtain ⟨hi, hvehicle⟩ := List.getElem?_eq_some_iff.mp h.getElem?_eq
  obtain ⟨seen, hseen, hwalk⟩ := exists_judgeVehicles_drop hi.le h.not_faultyAt
  rw [hwalk, List.drop_eq_getElem_cons hi, judgeVehicles_cons hseen, hvehicle, if_pos h.faulty]

/-- The walk comes to the end of the fleet, or to the first faulty vehicle. -/
theorem judgeVehicles_cases (limits : Limits) (vehicles : List Vehicle) :
    (∀ i, ¬ limits.FaultyAt vehicles i) ∧ limits.judgeVehicles ∅ vehicles = .accepted ∨
    ∃ i vehicle, limits.FirstFaulty vehicles i vehicle ∧
      limits.judgeVehicles ∅ vehicles = limits.reasonAgainst vehicle := by
  by_cases hsome : ∃ i, limits.FaultyAt vehicles i
  · obtain ⟨i, vehicle, hfirst⟩ := FirstFaulty.exists_of_faultyAt hsome
    exact .inr ⟨i, vehicle, hfirst, hfirst.judgeVehicles_eq⟩
  · have hnone := not_exists.mp hsome
    exact .inl ⟨hnone, judgeVehicles_of_faultless hnone⟩

/-! ## Fleets -/

theorem judgeFleet_eq_fleetTooLarge_iff : limits.judgeFleet vehicles = .fleetTooLarge ↔
    limits.maxFleetSize.toNat < vehicles.length := by
  rw [judgeFleet]
  split
  next hlarge => exact iff_of_true rfl hlarge
  next hsmall =>
    refine iff_of_false ?_ hsmall
    rcases limits.judgeVehicles_cases vehicles with ⟨-, heq⟩ | ⟨i, vehicle, -, heq⟩
    · simp [heq]
    · rw [heq]
      exact (limits.reasonAgainst_ne vehicle).2

theorem judgeFleet_of_le (hlength : vehicles.length ≤ limits.maxFleetSize.toNat) :
    limits.judgeFleet vehicles = limits.judgeVehicles ∅ vehicles := by
  rw [judgeFleet, if_neg (by omega)]

/-- A fleet that is not too large is admitted exactly if no vehicle is faulty. -/
theorem judgeFleet_eq_accepted_iff_faultless
    (hlength : vehicles.length ≤ limits.maxFleetSize.toNat) :
    limits.judgeFleet vehicles = .accepted ↔ ∀ i, ¬ limits.FaultyAt vehicles i := by
  rw [judgeFleet_of_le hlength]
  rcases limits.judgeVehicles_cases vehicles with ⟨hnone, heq⟩ | ⟨i, vehicle, hfirst, heq⟩
  · exact iff_of_true heq hnone
  · refine iff_of_false (heq ▸ (limits.reasonAgainst_ne vehicle).1) fun hnone ↦ ?_
    exact hnone i ⟨vehicle, hfirst.getElem?_eq, hfirst.faulty⟩

/-- A fleet that is refused stays so for the same reason, unless it gets too large. -/
theorem judgeFleet_append (h : limits.judgeFleet vehicles ≠ .accepted) (more : List Vehicle) :
    limits.judgeFleet (vehicles ++ more) =
      if limits.maxFleetSize.toNat < (vehicles ++ more).length then .fleetTooLarge
      else limits.judgeFleet vehicles := by
  by_cases hlarge : limits.maxFleetSize.toNat < (vehicles ++ more).length
  · rw [if_pos hlarge, judgeFleet_eq_fleetTooLarge_iff]
    exact hlarge
  · have hlength : vehicles.length ≤ limits.maxFleetSize.toNat := by
      rw [List.length_append] at hlarge
      omega
    rw [judgeFleet_of_le hlength] at h
    rw [if_neg hlarge, judgeFleet_of_le (by omega), judgeFleet_of_le hlength]
    rcases limits.judgeVehicles_cases vehicles with ⟨-, heq⟩ | ⟨i, vehicle, hfirst, heq⟩
    · exact absurd heq h
    · rw [heq, (hfirst.append more).judgeVehicles_eq]

end Limits

/-! ## The account of checks -/

namespace Admission

variable {admission : Admission}

/-- A check with the given verdict is entered in the account: it is counted, and counted again under
its reason if it is a refusal. -/
structure Enters (admission : Admission) (verdict : Verdict) (after : Admission) : Prop where
  /-- The limits stay in force. -/
  limits_eq : after.limits = admission.limits
  /-- Checks stay switched on, or off. -/
  enabled_eq : after.enabled = admission.enabled
  /-- One more check was made. -/
  checked_eq : after.checked = admission.checked + 1
  /-- One more request was refused, if it was. -/
  rejected_eq : after.rejected =
    if verdict = .accepted then admission.rejected else admission.rejected + 1
  /-- It was refused for this reason and for no other. -/
  countOfCode_eq : ∀ reason : Verdict, after.countOfCode reason.code =
    if reason = verdict ∧ reason ≠ .accepted then admission.countOfCode reason.code + 1
    else admission.countOfCode reason.code

theorem size_reasons_run (limits : Limits) (operations : List Operation) :
    ((ofLimits limits).run operations).reasons.size = Verdict.all.length := by
  have hcheck {admission : Admission} (h : admission.reasons.size = Verdict.all.length)
      (judge : Limits → Verdict) : (admission.check judge).2.reasons.size = Verdict.all.length := by
    rcases admission.check_cases judge with heq | ⟨-, heq⟩
    · rw [heq, h]
    · rw [heq, Array.size_modify, h]
  induction operations using List.reverseRecOn with
  | nil => rfl
  | append_singleton operations operation ih =>
    rw [run, List.foldl_append]
    cases operation with
    | updateLimits limits => exact ih
    | setEnabled enabled => exact ih
    | checkFleet vehicles => exact hcheck ih _
    | checkJourney party => exact hcheck ih _
    | checkId id => exact hcheck ih _

/-- Where checks are switched on, the verdict is given and entered. -/
theorem enters_check (henabled : admission.enabled = true)
    (hsize : admission.reasons.size = Verdict.all.length) (judge : Limits → Verdict) :
    (admission.check judge).1 = judge admission.limits ∧
      admission.Enters (judge admission.limits) (admission.check judge).2 := by
  have hverdict : (admission.check judge).1 = judge admission.limits := by
    rw [check]
    simp only [henabled, if_true, fst_record]
  refine ⟨hverdict, ?_⟩
  rcases admission.check_cases judge with heq | ⟨hrefused, heq⟩
  · have haccepted : judge admission.limits = .accepted := hverdict.symm.trans (by rw [heq])
    rw [heq, haccepted]
    refine ⟨rfl, rfl, rfl, rfl, fun reason ↦ ?_⟩
    rw [if_neg fun h ↦ h.2 h.1]
    rfl
  · rw [heq]
    refine ⟨rfl, rfl, rfl, (if_neg hrefused).symm, fun reason ↦ ?_⟩
    rw [countOfCode_code, getD_modify_reasons hsize]
    refine if_congr ⟨fun h ↦ ⟨h.symm, h ▸ hrefused⟩, fun h ↦ h.1.symm⟩ rfl rfl

/-- Whatever limits an admission was given, and whatever it was used for: once it is switched on, it
refuses a fleet for its size if it is too large, and otherwise for the first fault of its first
faulty vehicle, if there is one. Of these limits, the last are in force, but no vehicle is admitted
that has less than one seat or more than six, nor a party of such a size. The check is entered in
the account under this reason alone. And a fleet that is refused does not get another reason by more
vehicles, unless they make it too large. -/
theorem first_fault_decides (initial : Limits) (operations : List Operation)
    (henabled : ((ofLimits initial).run operations).enabled = true) (vehicles : List Vehicle) :
    let admission := (ofLimits initial).run operations
    let limits := admission.limits
    let given := lastGiven Operation.limits? initial operations
    let verdict := (admission.checkFleet vehicles).1
    -- The limits in force are those given last, as far as the books can hold what they admit.
    limits =
      { minVehicleCapacity := max given.minVehicleCapacity 1
        maxVehicleCapacity := min given.maxVehicleCapacity 6
        maxFleetSize := given.maxFleetSize
        minGroupSize := max given.minGroupSize 1
        maxGroupSize := min given.maxGroupSize 6 } ∧
    -- The verdict.
    (verdict = .fleetTooLarge ↔ limits.maxFleetSize.toNat < vehicles.length) ∧
    (vehicles.length ≤ limits.maxFleetSize.toNat →
      (verdict = .accepted ↔ ∀ i, ¬ limits.FaultyAt vehicles i) ∧
      ∀ i vehicle, limits.FirstFaulty vehicles i vehicle →
        verdict = limits.reasonAgainst vehicle) ∧
    -- The account.
    admission.Enters verdict (admission.checkFleet vehicles).2 ∧
    -- More vehicles.
    (verdict ≠ .accepted → ∀ more, (admission.checkFleet (vehicles ++ more)).1 =
      if limits.maxFleetSize.toNat < (vehicles ++ more).length then .fleetTooLarge else verdict) := by
  intro admission limits given verdict
  have hcheck (judge : Limits → Verdict) :=
    enters_check henabled (size_reasons_run initial operations) judge
  have hverdict (vehicles : List Vehicle) :
      (admission.checkFleet vehicles).1 = limits.judgeFleet vehicles := (hcheck _).1
  have heq : verdict = limits.judgeFleet vehicles := hverdict vehicles
  refine ⟨(limits_run initial operations).trans given.clamped_def, ?_, fun hlength ↦ ⟨?_, ?_⟩, ?_,
    fun hrefused more ↦ ?_⟩
  · rw [heq, Limits.judgeFleet_eq_fleetTooLarge_iff]
  · rw [heq, Limits.judgeFleet_eq_accepted_iff_faultless hlength]
  · intro i vehicle hfirst
    rw [heq, Limits.judgeFleet_of_le hlength, hfirst.judgeVehicles_eq]
  · rw [heq]
    exact (hcheck (·.judgeFleet vehicles)).2
  · rw [heq] at hrefused
    rw [hverdict, Limits.judgeFleet_append hrefused, heq]

/-- The second vehicle has too many seats and the id of the first one, and the third has no id. -/
theorem first_fault_decides_of_many :
    let admission := (ofLimits {}).run
      [.setEnabled false, .updateLimits { minVehicleCapacity := 2, maxVehicleCapacity := 4 },
        .checkFleet [⟨1, 6⟩], .setEnabled true]
    admission.enabled = true ∧
    admission.limits.FirstFaulty [⟨1, 4⟩, ⟨1, 5⟩, ⟨0, 3⟩] 1 ⟨1, 5⟩ ∧
    (admission.checkFleet [⟨1, 4⟩, ⟨1, 5⟩, ⟨0, 3⟩]).1 = .vehicleCapacity := by
  intro admission
  have hfirst : admission.limits.FirstFaulty [⟨1, 4⟩, ⟨1, 5⟩, ⟨0, 3⟩] 1 ⟨1, 5⟩ := by
    refine ⟨rfl, by decide, fun j hj ↦ ?_⟩
    obtain rfl := Nat.lt_one_iff.mp hj
    rintro ⟨vehicle, hvehicle, hfaulty⟩
    obtain rfl := Option.some.inj hvehicle
    exact absurd hfaulty (by decide)
  have hdecides := first_fault_decides {}
    [.setEnabled false, .updateLimits { minVehicleCapacity := 2, maxVehicleCapacity := 4 },
      .checkFleet [⟨1, 6⟩], .setEnabled true]
    rfl [⟨1, 4⟩, ⟨1, 5⟩, ⟨0, 3⟩]
  exact ⟨rfl, hfirst, (hdecides.2.2.1 (by decide)).2 1 ⟨1, 5⟩ hfirst⟩

end Admission

end RideShare
