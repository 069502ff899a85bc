import RideShare.Proofs.Admission
import RideShare.Proofs.Refusals
import RideShare.Proofs.Register

/-!
# What is admitted can be carried out

Requests are looked at twice. The admission compares them with its limits, which may be set to
anything at any time. The books have bounds of their own: they turn away a party of a size that no
party has, and in loading a fleet they pass over whatever is not a proper vehicle, without a word.

Both agree because limits are clamped before they are put in force. So an admission that is switched
on lets nothing pass that the books would refuse, and a fleet that it lets pass is loaded to the last
vehicle. This is so in any state of the books, reached or not.

## Main statements

* `Admission.limits_run`: the limits in force are those given last, clamped;
* `Admission.holdable_run`: so they are within the bounds of the books;
* `Dispatch.loads_reset`: proper vehicles with ids of their own are all loaded;
* `Engine.carries_out_admitted`: what is admitted is carried out.
-/

namespace RideShare

/-! ## Limits in force -/

namespace Limits

/-- Nothing is admitted that the books cannot hold. -/
structure Holdable (limits : Limits) : Prop where
  /-- Vehicles have a proper number of seats. -/
  isSeatCount_capacity : ∀ {capacity : UInt32},
    limits.admitsCapacity capacity = true → isSeatCount capacity = true
  /-- Parties have a proper size. -/
  isSeatCount_size : ∀ {size : UInt32}, limits.admitsSize size = true → isSeatCount size = true

/-- What is within clamped bounds is within those given, and within those they are clamped to. -/
private theorem within_clamped (low high n : UInt32) :
    (decide (max low minSeats ≤ n) && decide (n ≤ min high maxSeats)) =
      ((decide (low ≤ n) && decide (n ≤ high)) && isSeatCount n) := by
  rw [Bool.eq_iff_iff]
  simp only [Bool.and_eq_true, decide_eq_true_eq, isSeatCount, UInt32.le_iff_toNat_le,
    UInt32.toNat_max, UInt32.toNat_min, max_le_iff, le_min_iff]
  exact and_and_and_comm

/-- Clamped limits admit what the given ones do, as far as vehicles have that many seats. -/
@[simp] theorem admitsCapacity_clamped (limits : Limits) (capacity : UInt32) :
    limits.clamped.admitsCapacity capacity =
      (limits.admitsCapacity capacity && isSeatCount capacity) :=
  within_clamped ..

/-- They admit what the given ones do, as far as parties have that many people. -/
@[simp] theorem admitsSize_clamped (limits : Limits) (size : UInt32) :
    limits.clamped.admitsSize size = (limits.admitsSize size && isSeatCount size) :=
  within_clamped ..

/-- Limits may admit nothing at all after clamping, but never too much. -/
theorem holdable_clamped (limits : Limits) : limits.clamped.Holdable where
  isSeatCount_capacity h := by
    rw [admitsCapacity_clamped, Bool.and_eq_true] at h
    exact h.2
  isSeatCount_size h := by
    rw [admitsSize_clamped, Bool.and_eq_true] at h
    exact h.2

end Limits

namespace Admission

/-- An operation of an admission, with its arguments. -/
inductive Operation where
  /-- Put other limits in force. -/
  | updateLimits (limits : Limits)
  /-- Switch checks on or off. -/
  | setEnabled (enabled : Bool)
  /-- Check a fleet. -/
  | checkFleet (vehicles : List Vehicle)
  /-- Check a request for a journey. -/
  | checkJourney (party : Party)
  /-- Check a request that only names a party. -/
  | checkId (id : UInt64)

/-- The admission after an operation. -/
def apply (admission : Admission) : Operation → Admission
  | .updateLimits limits => admission.updateLimits limits
  | .setEnabled enabled => admission.setEnabled enabled
  | .checkFleet vehicles => (admission.checkFleet vehicles).2
  | .checkJourney party => (admission.checkJourney party).2
  | .checkId id => (admission.checkId id).2

/-- The admission after some operations. -/
def run (admission : Admission) (operations : List Operation) : Admission :=
  operations.foldl apply admission

section

variable {admission : Admission}

theorem limits_check (admission : Admission) (judge : Limits → Verdict) :
    (admission.check judge).2.limits = admission.limits := by
  rcases admission.check_cases judge with heq | ⟨-, heq⟩ <;> rw [heq]

/-- The limits that an operation gives. -/
def Operation.limits? : Operation → Option Limits
  | .updateLimits limits => some limits
  | _ => none

/-- The limits in force are those given last, clamped. -/
theorem limits_run (initial : Limits) (operations : List Operation) :
    ((ofLimits initial).run operations).limits =
      (lastGiven Operation.limits? initial operations).clamped := by
  induction operations using List.reverseRecOn with
  | nil => rfl
  | append_singleton operations operation ih =>
    rw [run, List.foldl_append, lastGiven_concat]
    cases operation with
    | updateLimits limits => rfl
    | setEnabled enabled => exact ih
    | checkFleet vehicles => exact (limits_check _ _).trans ih
    | checkJourney party => exact (limits_check _ _).trans ih
    | checkId id => exact (limits_check _ _).trans ih

theorem holdable_run (initial : Limits) (operations : List Operation) :
    ((ofLimits initial).run operations).limits.Holdable := by
  rw [limits_run]
  exact Limits.holdable_clamped _

@[simp] theorem fst_record (admission : Admission) (verdict : Verdict) :
    (admission.record verdict).1 = verdict := by
  cases verdict <;> rfl

/-- Where checks are switched on, whatever passes is within the limits. -/
theorem judge_of_accepted (henabled : admission.enabled = true) {judge : Limits → Verdict}
    (h : (admission.check judge).1 = .accepted) : judge admission.limits = .accepted := by
  rw [check] at h
  simpa only [henabled, if_true, fst_record] using h

end

end Admission

/-! ## In the books -/

namespace Dispatch

/-- All of the vehicles are loaded, and nobody rides on them. -/
structure Loads (books : Dispatch) (vehicles : List Vehicle) : Prop where
  /-- There are as many vehicles as are listed. -/
  vehicleCount_eq : books.vehicleCount = vehicles.length
  /-- They have all of the seats. -/
  totalSeats_eq : books.fleet.totalSeats =
    (vehicles.map fun vehicle : Vehicle ↦ vehicle.capacity.toNat).sum
  /-- Every vehicle is found under its id. -/
  get?_eq : ∀ vehicle ∈ vehicles, books.fleet.get? vehicle.id = some vehicle
  /-- All of its seats are free. -/
  availableSeats_eq : ∀ vehicle ∈ vehicles, books.availableSeats vehicle.id = vehicle.capacity

theorem loads_reset (books : Dispatch) {vehicles : List Vehicle}
    (hproper : ∀ vehicle ∈ vehicles, vehicle.id ≠ noVehicle ∧ isSeatCount vehicle.capacity = true)
    (hnodup : (vehicles.map Vehicle.id).Nodup) : (books.reset vehicles).books.Loads vehicles := by
  have hsound := Fleet.sound_ofVehicles vehicles
  have hslots := Fleet.slots_ofVehicles_of_nodup hproper hnodup
  have hfind {vehicle : Vehicle} (hvehicle : vehicle ∈ vehicles) :
      (Fleet.ofVehicles vehicles).find? vehicle.id =
        some { vehicle, available := vehicle.capacity } := by
    refine hsound.find?_eq_some_iff.mpr ⟨?_, rfl⟩
    rw [← Array.mem_toList_iff, hslots]
    exact List.mem_map_of_mem hvehicle
  refine ⟨?_, ?_, fun vehicle hvehicle ↦ ?_, fun vehicle hvehicle ↦ ?_⟩
  · have hlength := congrArg List.length hslots
    rwa [List.length_map, Array.length_toList] at hlength
  · refine hsound.totalSeats_eq.trans ?_
    rw [hslots, List.map_map]
    rfl
  · exact congrArg (Option.map Slot.vehicle) (hfind hvehicle)
  · exact Fleet.availableOf_eq (hfind hvehicle)

theorem Loads.congr {books books' : Dispatch} {vehicles : List Vehicle} (h : books.Loads vehicles)
    (same : books.SameRecords books') : books'.Loads vehicles := by
  refine ⟨?_, ?_, ?_, ?_⟩
  · simpa only [vehicleCount, same.fleet] using h.vehicleCount_eq
  · simpa only [same.fleet] using h.totalSeats_eq
  · simpa only [same.fleet] using h.get?_eq
  · simpa only [availableSeats, same.fleet] using h.availableSeats_eq

/-- In any books, a party of a size that parties have is not turned away for its size. -/
theorem answer_ne_invalidGroupSize (books : Dispatch) {party : Party}
    (hsize : isSeatCount party.size = true) :
    (books.requestJourney party).answer ≠ .invalidGroupSize := by
  cases hknown : books.roster.contains party.id || books.backlog.contains party.id with
  | true => simp [requestJourney, hsize, hknown]
  | false =>
    obtain ⟨vehicle?, fleet, hreserve⟩ : ∃ vehicle? fleet,
      books.fleet.reserve party.size = (vehicle?, fleet) := ⟨_, _, rfl⟩
    cases vehicle? with
    | some vehicle => simp [requestJourney, hsize, hknown, hreserve]
    | none =>
      cases hjoins : (books.backlog.enqueue party).1 <;>
        simp [requestJourney, hsize, hknown, hreserve, hjoins]

end Dispatch

/-! ## Together -/

namespace Engine

/-- Whatever limits an admission was given, and whatever it was used for: once it is switched on, a
party that it admits is not turned away for its size, and a fleet that it admits is loaded to the
last vehicle. -/
theorem carries_out_admitted (engine : Engine) (limits : Limits)
    (operations : List Admission.Operation)
    (henabled : ((Admission.ofLimits limits).run operations).enabled = true) :
    let admission := (Admission.ofLimits limits).run operations
    (∀ party, (admission.checkJourney party).1 = .accepted →
      (engine.books.requestJourney party).answer ≠ .invalidGroupSize ∧
      (engine.requestJourney party).answer ≠ .ok .invalidGroupSize) ∧
    ∀ vehicles, (admission.checkFleet vehicles).1 = .accepted →
      (engine.reset vehicles).engine.books.Loads vehicles := by
  intro admission
  have hholdable : admission.limits.Holdable := Admission.holdable_run limits operations
  refine ⟨fun party haccepted ↦ ?_, fun vehicles haccepted ↦ ?_⟩
  · have hjudged := Admission.judge_of_accepted henabled haccepted
    have hsize := hholdable.isSeatCount_size (Limits.judgeJourney_eq_accepted_iff.mp hjudged).2
    have hanswer := engine.books.answer_ne_invalidGroupSize hsize
    refine ⟨hanswer, ?_⟩
    rw [engine.answer_requestJourney]
    cases engine.refusal? (.requestJourney party) with
    | none => exact fun heq ↦ hanswer (Except.ok.inj heq)
    | some message => exact nofun
  · have hjudged := Admission.judge_of_accepted henabled haccepted
    obtain ⟨-, hproper, hnodup⟩ := Limits.judgeFleet_eq_accepted_iff.mp hjudged
    refine (engine.books.loads_reset (fun vehicle hvehicle ↦ ?_) hnodup).congr
      (engine.sameRecords_apply (.reset vehicles))
    exact ⟨(hproper vehicle hvehicle).1,
      hholdable.isSeatCount_capacity (hproper vehicle hvehicle).2⟩

/-- Limits that would admit anything, put in force while checks were switched off. -/
theorem carries_out_admitted_of_wide :
    ((ofReserve 0).requestJourney ⟨5, 6⟩).answer ≠ .ok .invalidGroupSize ∧
    ((ofReserve 0).reset [⟨2, 6⟩, ⟨1, 1⟩]).engine.books.Loads [⟨2, 6⟩, ⟨1, 1⟩] := by
  have hboth := carries_out_admitted (ofReserve 0)
    { minVehicleCapacity := 5, maxVehicleCapacity := 2 }
    [.setEnabled false, .checkJourney ⟨1, 9⟩,
      .updateLimits
        { minVehicleCapacity := 0, maxVehicleCapacity := 4294967295
          minGroupSize := 0, maxGroupSize := 4294967295 },
      .setEnabled true]
    rfl
  exact ⟨(hboth.1 ⟨5, 6⟩ (by cbv)).2, hboth.2 [⟨2, 6⟩, ⟨1, 1⟩] (by cbv)⟩

end Engine

end RideShare
