import Mathlib
import RideShare.Engine
import RideShare.Proofs.Operations
import RideShare.Proofs.Schedule

/-!
# Runs of the engine

An engine is used by calling its operations in any order, with any arguments. What a publisher sees
or does in between changes nothing but the count of questions, so the books of a run are those that
the operations leave, up to their counters. They start out in order and stay so.

## Main statements

* `Dispatch.Consistent.changed`: what an operation can change;
* `Engine.sameRecords_apply`: an operation of the engine does what it does to the books alone;
* `Engine.orderly_run`: the books are in order at every point of every run;
* `Engine.lt_size_of_mem_waiting`: nobody is ever left stranded.
-/

namespace RideShare

open Journal

/-! ## What publishers leave alone -/

namespace Journal

variable {σ : Type} {host : Host σ} {P : σ → Prop}

theorem Publisher.react_keeps (hlocate : ∀ state id, P state → P (host.locate state id).2)
    (publisher : Publisher) (number : Nat) {state : σ} (h : P state) (record : Record) :
    P (publisher.react host number state record).2 := by
  cases publisher with
  | locator =>
    cases record with
    | event event => exact hlocate state event.party.id h
    | report report => exact h
    | reset reset => exact h
  | recorder => exact h
  | failing message kinds onReport onReset => exact h
  | console verbose => exact h
  | file base => exact h

/-- Whatever questions leave alone is left alone by a delivery. -/
theorem Manager.deliver_keeps (hlocate : ∀ state id, P state → P (host.locate state id).2)
    (manager : Manager) (records : List Record) {state : σ} (h : P state) :
    P (manager.deliver host state records).state := by
  rw [deliver_eq]
  refine Delivery.follow_keeps (P := fun delivery ↦ P delivery.state)
    (fun delivery h appointment _ ↦ ?_) h
  cases hrefusal : appointment.refusal? with
  | none =>
    rw [Delivery.attend_of_accepted hrefusal]
    exact appointment.recipient.publisher.react_keeps hlocate _ h appointment.record
  | some message =>
    rw [Delivery.attend_of_refused hrefusal]
    exact h

end Journal

/-! ## Operations -/

/-- An operation of the engine, with its arguments. -/
inductive Operation where
  /-- Forget all parties and load a new fleet. -/
  | reset (vehicles : List Vehicle)
  /-- Ask for a journey. -/
  | requestJourney (party : Party)
  /-- End a journey. -/
  | dropoff (id : UInt64)
  /-- Ask where a party is. -/
  | locate (id : UInt64)
  /-- Choose who is told, or tell nobody. -/
  | setManager (manager : Option Manager)
  /-- Read the clock. -/
  | readClock (now : Reading)

/-- The books after an operation of which nobody is told. -/
def Dispatch.apply (books : Dispatch) : Operation → Dispatch
  | .reset vehicles => (books.reset vehicles).books
  | .requestJourney party => (books.requestJourney party).books
  | .dropoff id => (books.dropoff id).books
  | .locate id => (books.locate id).2
  | .setManager _ => books
  | .readClock _ => books

/-- The party that an operation brings in, if any: it asks for a journey and is not turned away. -/
def Dispatch.arrival? (books : Dispatch) : Operation → Option UInt64
  | .requestJourney party =>
    match (books.requestJourney party).answer with
    | .assigned | .queued => some party.id
    | .duplicateGroup | .invalidGroupSize => none
  | _ => none

/-- Whether an operation puts a party out of the books, if it is in them. -/
def Operation.Removes (id : UInt64) : Operation → Prop
  | .reset _ => True
  | .dropoff other => other = id
  | _ => False

theorem Operation.not_removes_requestJourney (id : UInt64) (party : Party) :
    ¬ (Operation.requestJourney party).Removes id :=
  not_false

/-- What an operation changes, the counters aside. -/
inductive Dispatch.Changed (books : Dispatch) (operation : Operation) : Prop where
  /-- Nothing, and nobody leaves. -/
  | kept (harrival : books.arrival? operation = none)
      (hremoves : ∀ id, operation.Removes id → ¬ books.Knows id)
      (same : books.SameRecords (books.apply operation))
  /-- Everybody is forgotten. -/
  | emptied (vehicles : List Vehicle) (hoperation : operation = .reset vehicles)
      (same : SameRecords
        { fleet := Fleet.ofVehicles vehicles, backlog := books.backlog.clear }
        (books.apply operation))
  /-- A new party boards. -/
  | boarded (party : Party) (slot : Slot) (hoperation : operation = .requestJourney party)
      (harrival : books.arrival? operation = some party.id)
      (hsize : isSeatCount party.size = true) (hnew : ¬ books.Knows party.id)
      (hslot : books.fleet.find? slot.vehicle.id = some slot) (hfit : party.size ≤ slot.available)
      (same : (books.board party slot).SameRecords (books.apply operation))
  /-- A new party waits. -/
  | held (party : Party) (hoperation : operation = .requestJourney party)
      (harrival : books.arrival? operation = some party.id)
      (hsize : isSeatCount party.size = true) (hnew : ¬ books.Knows party.id)
      (same : (books.hold party).SameRecords (books.apply operation))
  /-- A party that waits leaves. -/
  | left (id : UInt64) (hoperation : operation = .dropoff id) (hwait : books.Waits id)
      (same : (books.leave id).SameRecords (books.apply operation))
  /-- A party alights, and its vehicle is filled again. -/
  | refilled (party : Party) (slot : Slot) (hoperation : operation = .dropoff party.id)
      (hride : books.Rides party.id slot.vehicle.id)
      (hslot : books.fleet.find? slot.vehicle.id = some slot)
      (hsize : books.roster[party.id]? = some party.size)
      (same : SameRecords
        (((books.alight party slot).refill (slot.withAvailable (slot.freed party.size))).books
          (books.roster.erase party.id))
        (books.apply operation))

theorem Dispatch.Consistent.changed {books : Dispatch} (h : books.Consistent)
    (operation : Operation) : books.Changed operation := by
  cases operation with
  | reset vehicles => exact .emptied vehicles rfl ⟨rfl, rfl, rfl, rfl⟩
  | requestJourney party =>
    cases h.requested party with
    | invalid hsize heq =>
      refine .kept ?_ (fun _ hremoves ↦ hremoves.elim) ?_
      · rw [arrival?, heq]
      · rw [apply, heq]
        exact ⟨rfl, rfl, rfl, rfl⟩
    | duplicate hsize hknows heq =>
      refine .kept ?_ (fun _ hremoves ↦ hremoves.elim) ?_
      · rw [arrival?, heq]
      · rw [apply, heq]
        exact ⟨rfl, rfl, rfl, rfl⟩
    | assigned slot hsize hnew hslot hfit hleast heq =>
      refine .boarded party slot rfl ?_ hsize hnew hslot hfit ?_
      · rw [arrival?, heq]
      · rw [apply, heq]
        exact ⟨rfl, rfl, rfl, rfl⟩
    | queued hsize hnew hfull heq =>
      refine .held party rfl ?_ hsize hnew ?_
      · rw [arrival?, heq]
      · rw [apply, heq]
        exact ⟨rfl, rfl, rfl, rfl⟩
  | dropoff id =>
    cases h.ended id with
    | unknown hnew heq =>
      refine .kept rfl (fun _ hremoves ↦ hremoves ▸ hnew) ?_
      rw [apply, heq]
      exact ⟨rfl, rfl, rfl, rfl⟩
    | left size hparty heq =>
      refine .left id rfl ⟨_, hparty, rfl⟩ ?_
      rw [apply, heq]
      exact ⟨rfl, rfl, rfl, rfl⟩
    | alighted size slot pass report hride hslot hsize hpass hreport heq =>
      refine .refilled { id, size } slot rfl hride hslot hsize ?_
      rw [apply, heq, hpass]
      exact ⟨rfl, rfl, rfl, rfl⟩
  | locate id => exact .kept rfl (fun _ hremoves ↦ hremoves.elim) ⟨rfl, rfl, rfl, rfl⟩
  | setManager manager => exact .kept rfl (fun _ hremoves ↦ hremoves.elim) (.refl books)
  | readClock now => exact .kept rfl (fun _ hremoves ↦ hremoves.elim) (.refl books)

/-- The books stay in order whatever the operation. -/
theorem Dispatch.Orderly.apply {books : Dispatch} (h : books.Orderly) (operation : Operation) :
    (books.apply operation).Orderly := by
  cases operation with
  | reset vehicles => exact h.reset vehicles
  | requestJourney party => exact h.requestJourney party
  | dropoff id => exact h.dropoff id
  | locate id => exact h.locate id
  | setManager manager => exact h
  | readClock now => exact h

namespace Engine

/-- The engine after an operation. -/
def apply (engine : Engine) : Operation → Engine
  | .reset vehicles => (engine.reset vehicles).engine
  | .requestJourney party => (engine.requestJourney party).engine
  | .dropoff id => (engine.dropoff id).engine
  | .locate id => (engine.locate id).2
  | .setManager manager => engine.setManager manager
  | .readClock now => { engine with clock := now }

/-- The engine after some operations. -/
def run (engine : Engine) (operations : List Operation) : Engine := operations.foldl apply engine

theorem run_append (engine : Engine) (operations others : List Operation) :
    engine.run (operations ++ others) = (engine.run operations).run others :=
  List.foldl_append

theorem run_concat (engine : Engine) (operations : List Operation) (operation : Operation) :
    engine.run (operations ++ [operation]) = (engine.run operations).apply operation :=
  engine.run_append operations [operation]

/-- Publishing changes the counters at most. -/
theorem sameRecords_publish {α : Type} (manager : Option Manager) (clock : Reading)
    (step : Dispatch.Step α) :
    step.books.SameRecords (publish manager clock step).engine.books := by
  obtain ⟨books, answer, batch, strays⟩ := step
  cases manager with
  | none => exact .refl books
  | some manager =>
    refine manager.deliver_keeps (P := books.SameRecords) (fun books' id h ↦ ?_) _ (.refl books)
    exact h.trans ⟨rfl, rfl, rfl, rfl⟩

/-- An operation of the engine does what it does to the books alone. -/
theorem sameRecords_apply (engine : Engine) (operation : Operation) :
    (engine.books.apply operation).SameRecords (engine.apply operation).books := by
  cases operation with
  | reset vehicles => exact sameRecords_publish _ _ _
  | requestJourney party => exact sameRecords_publish _ _ _
  | dropoff id => exact sameRecords_publish _ _ _
  | locate id => exact .refl _
  | setManager manager => exact .refl _
  | readClock now => exact .refl _

theorem orderly_apply {engine : Engine} (h : engine.books.Orderly) (operation : Operation) :
    (engine.apply operation).books.Orderly :=
  (h.apply operation).congr (engine.sameRecords_apply operation)

/-- The books are in order at every point of every run. -/
theorem orderly_run (reserve : Nat) (operations : List Operation) :
    ((ofReserve reserve).run operations).books.Orderly := by
  induction operations using List.reverseRecOn with
  | nil => exact Dispatch.orderly_ofReserve reserve
  | append_singleton operations operation ih =>
    rw [run_concat]
    exact orderly_apply ih operation

/-- Nobody is ever left stranded: whoever waits is larger than the free seats of any vehicle. -/
theorem lt_size_of_mem_waiting (reserve : Nat) (operations : List Operation) {party : Party}
    {slot : Slot} (hparty : party ∈ ((ofReserve reserve).run operations).books.waiting)
    (hslot : slot ∈ ((ofReserve reserve).run operations).books.fleet.slots) :
    slot.available < party.size :=
  (orderly_run reserve operations).settled party hparty slot hslot

/-- A party of five waits for a vehicle of four. -/
theorem lt_size_of_mem_waiting_four :
    ⟨7, 5⟩ ∈ ((ofReserve 0).run [.reset [⟨1, 4⟩], .requestJourney ⟨7, 5⟩]).books.waiting ∧
    ⟨⟨1, 4⟩, 4⟩ ∈ ((ofReserve 0).run [.reset [⟨1, 4⟩], .requestJourney ⟨7, 5⟩]).books.fleet.slots ∧
    (4 : UInt32) < 5 := by
  have hwaiting : ((ofReserve 0).run [.reset [⟨1, 4⟩], .requestJourney ⟨7, 5⟩]).books.waiting =
      [⟨7, 5⟩] := by cbv
  have hslots : ((ofReserve 0).run [.reset [⟨1, 4⟩], .requestJourney ⟨7, 5⟩]).books.fleet.slots =
      #[⟨⟨1, 4⟩, 4⟩] := by cbv
  have hparty := hwaiting ▸ List.mem_singleton_self _
  have hslot := hslots ▸ Array.mem_singleton_self _
  exact ⟨hparty, hslot, lt_size_of_mem_waiting 0 _ hparty hslot⟩

end Engine

end RideShare
