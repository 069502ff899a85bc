import RideShare.Proofs.Publishing

/-!
# Precautions that are never needed

Operations are careful. A pass takes a step back when the seats are gone or the party has left; a
request that finds the backlog closed is turned away; a party that neither rides nor waits is
forgotten with a warning; a rider whose vehicle is unknown is found on a vehicle without seats. None
of this ever happens. `Dispatch.Smooth` lists the precautions one by one, each with the question on
which it depends, and says that every question is answered favourably.

Consistency is enough to see this, but it has to hold in the middle of a pass as well: the seats
handed out so far, and the parties seated so far, are what the next step is asked about.

## Main statements

* `Pass.Ready.after`: what holds in the middle of a pass;
* `Dispatch.Consistent.smooth`: consistent books need no precautions;
* `Engine.never_refuses`: nor does any run.
-/

namespace RideShare

open Journal

/-! ## In the middle of a pass -/

/-- When some of the parties have been seated, the others can still be. -/
theorem Pass.Ready.after {pass : Pass} {roster : Std.HashMap UInt64 UInt32} {slot : Slot}
    {front back : List Party} (h : pass.Ready roster slot (front ++ back)) :
    ∃ slot' : Slot, slot'.vehicle.id = slot.vehicle.id ∧
      (seatAll slot.vehicle.id pass front).Ready roster slot' back ∧
      seatAll slot.vehicle.id pass (front ++ back) =
        seatAll slot.vehicle.id (seatAll slot.vehicle.id pass front) back := by
  induction front generalizing pass slot with
  | nil => exact ⟨slot, rfl, h, rfl⟩
  | cons party rest ih =>
    rw [List.cons_append] at h ⊢
    have hfirst : pass.Ready roster slot (party :: rest) := h.of_append
    have hrest := ih h.seat
    rw [Slot.vehicle_withAvailable] at hrest
    rw [h.seatAll_cons, hfirst.seatAll_cons]
    exact hrest

namespace Dispatch

/-! ## The precautions -/

/-- The pass that begins when a party has left its vehicle. -/
def passOf (books : Dispatch) (party : Party) (vehicle : UInt64) : Pass where
  fleet := (books.fleet.release vehicle party.size).2
  seating := books.seating.erase party.id
  backlog := books.backlog

/-- The parties that are chosen for the seats. -/
def chosenFor (books : Dispatch) (party : Party) (vehicle : UInt64) : List Party :=
  books.backlog.choose (books.fleet.release vehicle party.size).1

theorem fst_reallocate (books : Dispatch) (party : Party) (vehicle : UInt64) :
    (reallocate books.fleet (books.seating.erase party.id) books.backlog vehicle party.size).1 =
      Pass.seatAll vehicle (books.passOf party vehicle) (books.chosenFor party vehicle) :=
  rfl

/-- When a party leaves the vehicle, nothing stands in the way of filling it again. -/
structure Refills (books : Dispatch) (party : Party) (vehicle : UInt64) : Prop where
  /-- The vehicle is known. -/
  known : (books.fleet.get? vehicle).isSome
  /-- It gets back all the seats that the party had. -/
  released : (books.fleet.release vehicle party.size).1.toNat =
    (books.fleet.availableOf vehicle).toNat + party.size.toNat
  /-- The pass comes to every party chosen, finds seats for it, and finds it waiting. -/
  seats : ∀ front next back, books.chosenFor party vehicle = front ++ next :: back →
    let pass := Pass.seatAll vehicle (books.passOf party vehicle) front
    Pass.seatAll vehicle (books.passOf party vehicle) (books.chosenFor party vehicle) =
        Pass.seatAll vehicle pass (next :: back) ∧
      (pass.fleet.tryReserve vehicle next.size).1 = true ∧
      (pass.backlog.dequeue next.id).1 = true
  /-- The vehicle is still known when the pass is over. -/
  known_after : ((reallocate books.fleet (books.seating.erase party.id) books.backlog vehicle
    party.size).1.fleet.get? vehicle).isSome
  /-- Everybody who was chosen is reported as seated. -/
  assigned : (reallocate books.fleet (books.seating.erase party.id) books.backlog vehicle
    party.size).2.assigned = books.chosenFor party vehicle

/-- No operation on the books needs its precautions. -/
structure Smooth (books : Dispatch) : Prop where
  /-- Who is new, has a proper size and finds no seat is let into the backlog. -/
  enqueue : ∀ party, isSeatCount party.size = true →
    (books.roster.contains party.id || books.backlog.contains party.id) = false →
    (books.fleet.reserve party.size).1 = none → (books.backlog.enqueue party).1 = true
  /-- Who is known and does not ride is found in the backlog. -/
  dequeue : ∀ id, books.roster.contains id = true → books.seating.get? id = none →
    (books.backlog.dequeue id).1 = true
  /-- The vehicle of a rider is known. -/
  get : ∀ id vehicle, books.seating.get? id = some vehicle → (books.fleet.get? vehicle).isSome
  /-- When a rider leaves, the vehicle can be filled again. -/
  refills : ∀ id size vehicle, books.roster[id]? = some size →
    books.seating.get? id = some vehicle → books.Refills ⟨id, size⟩ vehicle

namespace Consistent

variable {books : Dispatch}

theorem refills (h : books.Consistent) {party : Party} {vehicle : UInt64}
    (hsize : books.roster[party.id]? = some party.size) (hride : books.Rides party.id vehicle) :
    books.Refills party vehicle := by
  obtain ⟨slot, hslot⟩ := h.exists_slot hride
  obtain rfl := h.fleet.id_eq_of_find? hslot
  have hget : books.fleet.get? slot.vehicle.id = some slot.vehicle := by
    rw [Fleet.get?, hslot, Option.map_some]
  have hready := (h.alight hride hslot hsize).ready (h.find?_alighted party hslot)
  have hstart : books.passOf party slot.vehicle.id = Pass.ofBooks (books.alight party slot) := by
    rw [passOf, Fleet.release_eq hslot]
    rfl
  have hchosen : books.chosenFor party slot.vehicle.id =
      fill (slot.freed party.size).toNat books.waiting := by
    rw [chosenFor, Fleet.release_eq hslot]
    exact h.backlog.choose_eq_fill _
  refine ⟨by rw [hget, Option.isSome_some], ?_, fun front next back hsplit ↦ ?_, ?_, ?_⟩
  · rw [Fleet.release_eq hslot, Fleet.availableOf_eq hslot]
    exact h.toNat_freed hride hslot hsize
  · rw [hstart, hsplit]
    have hall : (Pass.ofBooks (books.alight party slot)).Ready (books.alight party slot).roster
        (slot.withAvailable (slot.freed party.size)) (front ++ next :: back) := by
      rw [← hsplit, hchosen]
      exact hready
    obtain ⟨slot', hid, hnext, hseat⟩ := hall.after
    rw [Slot.vehicle_withAvailable] at hid hnext hseat
    refine ⟨hseat, ?_, hnext.dequeue_eq⟩
    rw [← hid] at hnext ⊢
    rw [hnext.tryReserve_eq]
  · obtain ⟨available, -, hfind⟩ := hready.served.exists_slot
    rw [fst_reallocate, hstart, hchosen]
    exact congrArg Option.isSome (congrArg (Option.map Slot.vehicle) hfind)
  · rw [h.reallocate_eq hride hslot hsize, hchosen]

/-- Where the places of the books agree, no operation needs its precautions. -/
theorem smooth (h : books.Consistent) : books.Smooth where
  enqueue party hsize hnew _ := h.fst_enqueue (h.not_known_iff.mpr hnew) hsize
  dequeue id hknown hout := by
    rw [Backlog.fst_dequeue]
    refine h.waits_iff.mp (((h.knows_iff id).mp ?_).resolve_left ?_)
    · exact Std.HashMap.contains_iff_mem.mp hknown
    · rintro ⟨vehicle, hride⟩
      exact Option.some_ne_none vehicle (hride.symm.trans hout)
  get id vehicle hride := by
    obtain ⟨slot, hslot⟩ := h.exists_slot hride
    rw [Fleet.get?, hslot]
    rfl
  refills id size vehicle hsize hride := h.refills hsize hride

/-! ## What is never counted or recorded -/

/-- An operation neither counts a conflict nor records one. -/
theorem no_conflict (h : books.Consistent) (operation : Operation) :
    (books.perform operation).books.counters.reserveConflicts = books.counters.reserveConflicts ∧
      ∀ event ∈ (books.perform operation).batch.events, event.kind ≠ .reserveConflict := by
  cases operation with
  | requestJourney party =>
    rw [perform]
    cases h.requested party with
    | invalid hsize heq => simp [heq, Step.map]
    | duplicate hsize hknows heq => simp [heq, Step.map]
    | assigned slot hsize hnew hslot hfit hleast heq => simp [heq, Step.map]
    | queued hsize hnew hfull heq => simp [heq, Step.map]
  | dropoff id =>
    rw [perform]
    cases h.ended id with
    | unknown hnew heq => simp [heq, Step.map]
    | left size hparty heq => simp [heq, Step.map]
    | alighted size slot pass report hride hslot hsize hpass hreport heq =>
      -- Only a pass could have conflicts, and its events are those of the parties it seats.
      have halighted : (books.alight ⟨id, size⟩ slot).Consistent := h.alight hride hslot hsize
      have hserved := halighted.refill (h.find?_alighted ⟨id, size⟩ hslot)
      have hconflicts : pass.conflicts = 0 := by rw [hpass, hserved.conflicts_eq]; rfl
      have hevents : pass.events.toList = _ := hpass ▸ hserved.events_eq
      simp [heq, Step.map, hconflicts, hevents, Pass.ofBooks]
  | reset vehicles => exact ⟨rfl, List.forall_mem_nil _⟩
  | locate id => exact ⟨rfl, List.forall_mem_nil _⟩
  | setManager manager => exact ⟨rfl, List.forall_mem_nil _⟩
  | readClock now => exact ⟨rfl, List.forall_mem_nil _⟩

end Consistent

end Dispatch

namespace Engine

/-- No publisher is ever told of a conflict. -/
theorem kind_ne_of_mem_calls {engine : Engine} (h : engine.books.Consistent)
    {operation : Operation} {call : Call} (hcall : call ∈ (engine.perform operation).calls)
    {event : Event} (hrecord : call.record = .event event) : event.kind ≠ .reserveConflict := by
  rw [calls_eq] at hcall
  obtain ⟨appointment, hkept, rfl⟩ := List.mem_map.mp hcall
  have hmem := mem_schedule ((isPrefix_keptOf _).subset hkept)
  rw [show appointment.record = .event event from hrecord] at hmem
  obtain ⟨made, hmade, hstamped⟩ : ∃ made ∈ (engine.books.perform operation).batch.events,
      { made with time := engine.timeOf operation } = event := by
    simpa [Batch.records, Batch.stamped] using hmem
  rw [← hstamped]
  exact (h.no_conflict operation).2 made hmade

/-- At any point of any run, no precaution is needed. So no conflict is ever counted, and none is
published. -/
theorem never_refuses (reserve : Nat) (operations : List Operation) :
    ((ofReserve reserve).run operations).books.Smooth ∧
      ((ofReserve reserve).run operations).books.counters.reserveConflicts = 0 ∧
      ∀ call ∈ (ofReserve reserve).calls operations, ∀ event, call.record = .event event →
        event.kind ≠ .reserveConflict := by
  refine ⟨(orderly_run reserve operations).toConsistent.smooth, ?_⟩
  induction operations using List.reverseRecOn with
  | nil => exact ⟨rfl, List.forall_mem_nil _⟩
  | append_singleton operations operation ih =>
    have hbooks := (orderly_run reserve operations).toConsistent
    have hcount := (hbooks.no_conflict operation).1
    rw [Dispatch.books_perform, ih.1] at hcount
    rw [run_concat, calls_concat, books_apply_eq, List.forall_mem_append]
    refine ⟨(UInt64.add_zero _).trans hcount, ih.2, fun call hcall event hrecord ↦ ?_⟩
    exact kind_ne_of_mem_calls hbooks hcall hrecord

end Engine

end RideShare
