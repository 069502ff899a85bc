import RideShare.Proofs.Frame
import RideShare.Proofs.Grid

/-!
# The life of a party

A party is in one of three places: nowhere, in the backlog, or on a vehicle. As long as nobody puts
it out of the books it only moves onward, from nowhere to the backlog or a vehicle, and from the
backlog to a vehicle. A rider stays on its vehicle. Only a reset and the end of its own journey put
a party out, and then it is nowhere, from where it may start over.

Which of the three it is can be asked, and for a rider the answer names the vehicle as it was
loaded. Vehicles are loaded by resets only, so that is a vehicle of the last one.

## Main statements

* `Dispatch.Orderly.onward_apply`: an operation that does not put a party out moves it onward;
* `Engine.map_vehicle_run`: the fleet has the vehicles of one that resets load, and nobody uses;
* `Engine.vehicles_run`: so they are those of the last reset;
* `Engine.life_cycle`: what happens to each party, and what does not, in every run.
-/

namespace RideShare

/-! ## Moving onward -/

/-- How a party can fare while nobody puts it out of the books. -/
inductive Whereabouts.Onward : Whereabouts → Whereabouts → Prop where
  /-- It is where it was. -/
  | stays (found : Whereabouts) : Onward found found
  /-- It has joined the backlog. -/
  | joins : Onward .unknown .waiting
  /-- It rides. -/
  | boards (vehicle : Vehicle) : Onward .unknown (.riding vehicle)
  /-- It has been picked up from the backlog. -/
  | pickedUp (vehicle : Vehicle) : Onward .waiting (.riding vehicle)

theorem Whereabouts.Onward.trans {a b c : Whereabouts} (hab : a.Onward b) (hbc : b.Onward c) :
    a.Onward c := by
  cases hab with
  | stays => exact hbc
  | joins =>
    cases hbc with
    | stays => exact .joins
    | pickedUp vehicle => exact .boards vehicle
  | boards vehicle =>
    cases hbc with
    | stays => exact .boards vehicle
  | pickedUp vehicle =>
    cases hbc with
    | stays => exact .pickedUp vehicle

theorem Operation.load?_eq_none {operation : Operation} {id : UInt64}
    (hstays : ¬ operation.Removes id) : operation.load? = none :=
  operation.load?_cases.resolve_right fun ⟨_, hreset⟩ ↦ hstays (hreset ▸ trivial)

namespace Dispatch.Orderly

variable {books : Dispatch} {id : UInt64}

/-- A request takes a party from nowhere to a vehicle or to the backlog, or changes nothing. -/
private theorem onward_requestJourney (h : books.Orderly) (party : Party) :
    (books.whereabouts party.id).Onward
      ((books.apply (.requestJourney party)).whereabouts party.id) := by
  have hafter := h.apply (.requestJourney party)
  cases h.changed (.requestJourney party) with
  | kept harrival hremoves same =>
    rw [same.whereabouts_eq]
    exact .stays _
  | emptied vehicles hoperation same => cases hoperation
  | boarded party slot hoperation harrival hsize hnew hslot hfit same =>
    cases hoperation
    have hride : (books.apply (.requestJourney party)).Rides party.id slot.vehicle.id := by
      rw [← same.rides_iff, rides_board, if_pos rfl]
    obtain ⟨vehicle, hid, hloaded⟩ := hafter.exists_vehicle hride
    rw [whereabouts_eq_unknown_iff.mpr hnew, hafter.whereabouts_of_rides (hid ▸ hride) hloaded]
    exact .boards vehicle
  | held party hoperation harrival hsize hnew same =>
    cases hoperation
    have hwait : (books.apply (.requestJourney party)).Waits party.id := by
      refine ⟨party, ?_, rfl⟩
      rw [← same.waiting_eq, h.waiting_hold hnew hsize]
      exact List.mem_append_right _ (List.mem_singleton_self party)
    rw [whereabouts_eq_unknown_iff.mpr hnew, hafter.whereabouts_of_waits hwait]
    exact .joins
  | left id hoperation hwait same => cases hoperation
  | refilled party slot hoperation hride hslot hsize same => cases hoperation

/-- An operation that does not put a party out of the books moves it onward. -/
theorem onward_apply (h : books.Orderly) {operation : Operation} (hstays : ¬ operation.Removes id) :
    (books.whereabouts id).Onward ((books.apply operation).whereabouts id) := by
  by_cases hparty : operation.party? = some id
  · cases operation with
    | reset vehicles => exact absurd trivial hstays
    | requestJourney party => exact Option.some.inj hparty ▸ h.onward_requestJourney party
    | dropoff other => exact absurd (Option.some.inj hparty) hstays
    | locate other => exact .stays _
    | setManager manager => exact .stays _
    | readClock now => exact .stays _
  · rcases (h.frame (Operation.load?_eq_none hstays)).others id hparty with
      hsame | ⟨hwait, _, vehicle, _, _, hride⟩
    · rw [hsame]
      exact .stays _
    · rw [hwait, hride]
      exact .pickedUp vehicle

/-- An operation that puts a party out of the books leaves it nowhere. -/
theorem whereabouts_of_removes (h : books.Orderly) {operation : Operation}
    (hremoves : operation.Removes id) : (books.apply operation).whereabouts id = .unknown :=
  whereabouts_eq_unknown_iff.mpr (h.not_knows_apply hremoves)

end Dispatch.Orderly

/-! ## Runs -/

/-- The vehicles of the last reset; none before the first one. -/
def lastLoad (operations : List Operation) : List Vehicle :=
  Fleet.lastLoad (operations.filterMap Operation.load?)

namespace Engine

/-- The vehicles are those of a fleet that is loaded by the same resets and otherwise let alone. -/
theorem map_vehicle_run (reserve : Nat) (operations : List Operation) :
    ((ofReserve reserve).run operations).books.fleet.slots.map Slot.vehicle =
      (Fleet.run (operations.filterMap Operation.load?)).slots.map Slot.vehicle := by
  induction operations using List.reverseRecOn with
  | nil => rfl
  | append_singleton operations operation ih =>
    rw [run_concat, ← (sameRecords_apply _ operation).fleet, List.filterMap_append]
    rcases operation.load?_cases with hkeeps | ⟨vehicles, rfl⟩
    · rw [(orderly_run reserve operations).vehicles_apply hkeeps, ih,
        List.filterMap_cons_none hkeeps, List.filterMap_nil, List.append_nil]
    · -- Both load the same vehicles, whatever they had before.
      exact congrArg (·.slots.map Slot.vehicle) (Fleet.run_concat _ (.reset vehicles)).symm

/-- The vehicles are those of the last reset that can be loaded. -/
theorem vehicles_run (reserve : Nat) (operations : List Operation) :
    (((ofReserve reserve).run operations).books.fleet.slots.map Slot.vehicle).toList =
      Register.loadable (lastLoad operations) := by
  rw [map_vehicle_run, Fleet.vehicles_run, lastLoad]

/-- A party that nobody puts out of the books moves onward. -/
theorem onward_run {engine : Engine} (h : engine.books.Orderly) {id : UInt64}
    {operations : List Operation} (hstays : ∀ operation ∈ operations, ¬ operation.Removes id) :
    (engine.books.whereabouts id).Onward ((engine.run operations).books.whereabouts id) := by
  induction operations generalizing engine with
  | nil => exact .stays _
  | cons operation rest ih =>
    rw [List.forall_mem_cons] at hstays
    have hfirst := h.onward_apply hstays.1
    rw [← (sameRecords_apply engine operation).whereabouts_eq] at hfirst
    exact hfirst.trans (ih (orderly_apply h operation) hstays.2)

/-- What happens to a party, and what does not. -/
theorem life_cycle (reserve : Nat) (operations : List Operation) :
    let engine := (ofReserve reserve).run operations
    -- Nobody but the party an operation is about is affected, but for those who wait when a rider's
    -- seats get free, and no vehicle but its own.
    (∀ operation, operation.load? = none →
      engine.books.Frame (engine.apply operation).books operation) ∧
    -- A party is put out by a reset and by the end of its own journey. Otherwise it moves onward.
    (∀ id operation, operation.Removes id →
      ((engine.apply operation).locate id).1 = .unknown) ∧
    (∀ id later, (∀ operation ∈ later, ¬ operation.Removes id) →
      (engine.locate id).1.Onward ((engine.run later).locate id).1) ∧
    -- It is found where it is.
    ∀ id, ((engine.locate id).1 = .unknown ↔ ¬ engine.books.Knows id) ∧
      ((engine.locate id).1 = .waiting ↔ engine.books.Waits id) ∧
      ∀ vehicle, (engine.locate id).1 = .riding vehicle ↔
        engine.books.Rides id vehicle.id ∧ vehicle ∈ Register.loadable (lastLoad operations) := by
  intro engine
  have h : engine.books.Orderly := orderly_run reserve operations
  refine ⟨fun operation hreset ↦ (h.frame hreset).congr (sameRecords_apply engine operation),
    fun id operation hremoves ↦ ?_, fun id later hstays ↦ onward_run h hstays, fun id ↦
    ⟨Dispatch.whereabouts_eq_unknown_iff, h.whereabouts_eq_waiting_iff, fun vehicle ↦ ?_⟩⟩
  · exact ((sameRecords_apply engine operation).whereabouts_eq id).trans
      (h.whereabouts_of_removes hremoves)
  · rw [← vehicles_run reserve operations, Array.mem_toList_iff]
    exact h.whereabouts_eq_riding_iff

end Engine

end RideShare
