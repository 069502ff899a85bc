import RideShare.Proofs.Reallocation

/-!
# What operations do

Each operation is one of the changes to the books, or a few of them in a row: a request that is
accepted has the party board or joins it to the backlog, and the end of a journey has a party leave
the backlog, or alight and make room for others. `Requested` and `Ended` list what can happen, and
say in each case what it takes and what the books are then, counters included.

Consistent books stay consistent, and nobody who waits is left stranded: every party in the backlog
is larger than the seats free on any vehicle. The latter holds of every vehicle at any time,
although an operation that frees seats looks at a single one.

## Main statements

* `Dispatch.Consistent.requested` and `Dispatch.Consistent.ended`: what an operation can come to;
* `Dispatch.Orderly.requestJourney`, `Dispatch.Orderly.dropoff` and `Dispatch.Orderly.reset`: the
  books stay in order.
-/

namespace RideShare

open Journal

/-- A pass over the backlog that has yet to begin. -/
def Pass.ofBooks (books : Dispatch) : Pass :=
  { fleet := books.fleet, seating := books.seating, backlog := books.backlog }

namespace Dispatch

/-! ## Filling a vehicle -/

/-- The pass that offers the free seats of a vehicle to those who wait. -/
def refill (books : Dispatch) (slot : Slot) : Pass :=
  Pass.seatAll slot.vehicle.id (Pass.ofBooks books) (fill slot.available.toNat books.waiting)

/-- The books without a party that rides on a vehicle, whose seats are given back. -/
def forget (books : Dispatch) (party : Party) (vehicle : UInt64) : Dispatch :=
  { books with
    fleet := (books.fleet.release vehicle party.size).2
    seating := books.seating.erase party.id
    roster := books.roster.erase party.id }

theorem forget_eq (books : Dispatch) {party : Party} {slot : Slot}
    (hslot : books.fleet.find? slot.vehicle.id = some slot) :
    books.forget party slot.vehicle.id = books.alight party slot := by
  rw [forget, Fleet.release_eq hslot]
  rfl

namespace Consistent

variable {books : Dispatch} {party : Party} {slot : Slot}

theorem nodup_waiting (h : books.Consistent) : books.waiting.Nodup :=
  h.backlog.nodup_ids.of_map _

/-- Those who fit one after the other can be seated. -/
theorem ready (h : books.Consistent) (hslot : books.fleet.find? slot.vehicle.id = some slot) :
    (Pass.ofBooks books).Ready books.roster slot (fill slot.available.toNat books.waiting) where
  consistent := h.congr ⟨rfl, rfl, rfl, rfl⟩
  find?_eq := hslot
  headcount_le := headcount_fill_le _ _
  mem_waiting _ hparty := (fill_sublist _ _).subset hparty
  nodup := (fill_sublist _ _).nodup h.nodup_waiting

theorem refill (h : books.Consistent) (hslot : books.fleet.find? slot.vehicle.id = some slot) :
    (Pass.ofBooks books).Served (books.refill slot) books.roster slot
      (fill slot.available.toNat books.waiting) :=
  (h.ready hslot).served

theorem find?_alighted (h : books.Consistent) (party : Party)
    (hslot : books.fleet.find? slot.vehicle.id = some slot) :
    (books.alight party slot).fleet.find? (slot.withAvailable (slot.freed party.size)).vehicle.id =
      some (slot.withAvailable (slot.freed party.size)) :=
  (h.find?_alight party hslot _).trans (if_pos rfl)

/-- Those chosen when a party has alighted do not wait any more. -/
theorem waiting_refill_alight (h : books.Consistent) (hride : books.Rides party.id slot.vehicle.id)
    (hslot : books.fleet.find? slot.vehicle.id = some slot)
    (hsize : books.roster[party.id]? = some party.size) (roster : Std.HashMap UInt64 UInt32) :
    (((books.alight party slot).refill (slot.withAvailable (slot.freed party.size))).books
      roster).waiting =
      books.waiting.filter (· ∉ fill (slot.freed party.size).toNat books.waiting) :=
  ((h.alight hride hslot hsize).refill (h.find?_alighted party hslot)).waiting_eq

/-- The pass after a party has alighted chooses among all who wait, and seats all it chooses. -/
theorem reallocate_eq (h : books.Consistent) (hride : books.Rides party.id slot.vehicle.id)
    (hslot : books.fleet.find? slot.vehicle.id = some slot)
    (hsize : books.roster[party.id]? = some party.size) :
    reallocate books.fleet (books.seating.erase party.id) books.backlog slot.vehicle.id party.size =
      let chosen := fill (slot.freed party.size).toNat books.waiting
      let pass := (books.alight party slot).refill (slot.withAvailable (slot.freed party.size))
      (pass,
        { vehicle := slot.vehicle.id
          seatsReleased := party.size
          totalFree := slot.freed party.size
          waiting := books.waiting.length.toUInt64
          selected := chosen.length.toUInt64
          assignedCount := chosen.length.toUInt64
          people := people chosen
          remaining := pass.fleet.availableOf slot.vehicle.id
          assigned := chosen }) := by
  have hseated := ((h.alight hride hslot hsize).refill (h.find?_alighted party hslot)).seated_eq
  have hchosen : books.backlog.choose (slot.freed party.size) =
      fill (slot.freed party.size).toNat books.waiting := h.backlog.choose_eq_fill _
  rw [Slot.available_withAvailable] at hseated
  simp only [reallocate, Fleet.release_eq hslot, hchosen, h.backlog.size_eq]
  have hpass : Pass.seatAll slot.vehicle.id
      { fleet := books.fleet.withAvailable slot.vehicle.id (slot.freed party.size)
        seating := books.seating.erase party.id
        backlog := books.backlog }
      (fill (slot.freed party.size).toNat books.waiting) =
      (books.alight party slot).refill (slot.withAvailable (slot.freed party.size)) := rfl
  have hlist : ((books.alight party slot).refill
      (slot.withAvailable (slot.freed party.size))).seated.toList =
      fill (slot.freed party.size).toNat books.waiting := hseated
  rw [hpass, hlist]
  rfl

end Consistent

/-! ## Requests -/

/-- What a request can come to. -/
inductive Requested (books : Dispatch) (party : Party) (step : Step JourneyResult) : Prop where
  /-- No party has this size. -/
  | invalid (hsize : isSeatCount party.size = false)
      (heq : step =
        { books :=
            { books with
              counters :=
                { books.counters with
                  journeysRequested := books.counters.journeysRequested + 1
                  invalidSizesRejected := books.counters.invalidSizesRejected + 1 } }
          answer := .invalidGroupSize })
  /-- The party rides or waits already. -/
  | duplicate (hsize : isSeatCount party.size = true) (hknows : books.Knows party.id)
      (heq : step =
        { books :=
            { books with
              counters :=
                { books.counters with
                  journeysRequested := books.counters.journeysRequested + 1
                  duplicatesRejected := books.counters.duplicatesRejected + 1 } }
          answer := .duplicateGroup
          batch := { events := [{ kind := .duplicateRejected, party }] } })
  /-- The party boards the vehicle on which it leaves the fewest seats free. -/
  | assigned (slot : Slot) (hsize : isSeatCount party.size = true) (hnew : ¬ books.Knows party.id)
      (hslot : books.fleet.find? slot.vehicle.id = some slot) (hfit : party.size ≤ slot.available)
      (hleast : ∀ other ∈ books.fleet.slots, party.size ≤ other.available →
        slot.available ≤ other.available)
      (heq : step =
        { books :=
            { books.board party slot with
              counters :=
                { books.counters with
                  journeysRequested := books.counters.journeysRequested + 1
                  assignedOnRequest := books.counters.assignedOnRequest + 1 } }
          answer := .assigned
          batch := { events := [{ kind := .assigned, party, vehicle := slot.vehicle.id }] } })
  /-- No vehicle has room for the party, so it waits. -/
  | queued (hsize : isSeatCount party.size = true) (hnew : ¬ books.Knows party.id)
      (hfull : ∀ slot ∈ books.fleet.slots, slot.available < party.size)
      (heq : step =
        { books :=
            { books.hold party with
              counters :=
                { books.counters with
                  journeysRequested := books.counters.journeysRequested + 1
                  queued := books.counters.queued + 1 } }
          answer := .queued
          batch := { events := [{ kind := .queued, party }] } })

namespace Consistent

variable {books : Dispatch}

theorem not_known_iff (h : books.Consistent) {id : UInt64} :
    ¬ books.Knows id ↔ (books.roster.contains id || books.backlog.contains id) = false := by
  have hwait : books.backlog.contains id = true → books.roster.contains id = true := by
    intro hcontains
    rw [Std.HashMap.contains_iff_mem]
    exact (h.knows_iff id).mpr (.inr (h.waits_iff.mpr hcontains))
  rw [Knows, ← Std.HashMap.contains_iff_mem]
  cases hroster : books.roster.contains id <;> simp_all

theorem requested (h : books.Consistent) (party : Party) :
    Requested books party (books.requestJourney party) := by
  cases hsize : isSeatCount party.size with
  | false =>
    refine .invalid hsize ?_
    simp [requestJourney, hsize]
  | true =>
    by_cases hknows : books.Knows party.id
    · refine .duplicate hsize hknows ?_
      have hdup := mt h.not_known_iff.mpr (not_not.mpr hknows)
      rw [Bool.not_eq_false] at hdup
      simp [requestJourney, hsize, hdup]
    · have hnew := h.not_known_iff.mp hknows
      rcases h.fleet.reserve_cases hsize with ⟨hnone, hfull⟩ | ⟨slot, hslot, hfit, hleast, hsome⟩
      · refine .queued hsize hknows hfull ?_
        have hjoins := h.fst_enqueue hknows hsize
        simp [requestJourney, hsize, hnew, hnone, hjoins, Dispatch.hold]
      · refine .assigned slot hsize hknows hslot hfit hleast ?_
        simp [requestJourney, hsize, hnew, hsome, Dispatch.board]

end Consistent

/-! ## Ends of journeys -/

/-- What the end of a journey can come to. -/
inductive Ended (books : Dispatch) (id : UInt64) (step : Step DropoffResult) : Prop where
  /-- Nobody had asked for the journey. -/
  | unknown (hnew : ¬ books.Knows id)
      (heq : step =
        { books :=
            { books with
              counters :=
                { books.counters with
                  dropoffsNotFound := books.counters.dropoffsNotFound + 1 } }
          answer := .groupNotFound
          batch := { events := [{ kind := .notFound, party := { id, size := 0 } }] } })
  /-- The party leaves the backlog. -/
  | left (size : UInt32) (hparty : ⟨id, size⟩ ∈ books.waiting)
      (heq : step =
        { books :=
            { books.leave id with
              counters :=
                { books.counters with
                  dropoffsWaiting := books.counters.dropoffsWaiting + 1 } }
          answer := .leftQueue
          batch := { events := [{ kind := .leftQueue, party := { id, size } }] } })
  /-- The party alights, and its vehicle is filled again. -/
  | alighted (size : UInt32) (slot : Slot) (pass : Pass) (report : Report)
      (hride : books.Rides id slot.vehicle.id)
      (hslot : books.fleet.find? slot.vehicle.id = some slot)
      (hsize : books.roster[id]? = some size)
      (hpass : pass =
        (books.alight { id, size } slot).refill (slot.withAvailable (slot.freed size)))
      (hreport : report =
        (reallocate books.fleet (books.seating.erase id) books.backlog slot.vehicle.id size).2)
      (heq : step =
        { books :=
            { pass.books (books.roster.erase id) with
              counters :=
                { books.counters with
                  dropoffsRiding := books.counters.dropoffsRiding + 1
                  reserveConflicts := books.counters.reserveConflicts + pass.conflicts
                  reallocationPasses := books.counters.reallocationPasses + 1
                  groupsReallocated := books.counters.groupsReallocated + report.assignedCount } }
          answer := .droppedOff
          batch :=
            { events :=
                { kind := .droppedOff, party := { id, size }, vehicle := slot.vehicle.id } ::
                  pass.events.toList
              reports := [report] } })

namespace Consistent

variable {books : Dispatch}

theorem ended (h : books.Consistent) (id : UInt64) : Ended books id (books.dropoff id) := by
  cases hsize : books.roster[id]? with
  | none =>
    refine .unknown ?_ ?_
    · rw [Knows, Std.HashMap.mem_iff_isSome_getElem?, hsize]
      simp
    · simp [dropoff, hsize]
  | some size =>
    cases hseat : books.seating.get? id with
    | none =>
      have hknows : books.Knows id := by
        rw [Knows, Std.HashMap.mem_iff_isSome_getElem?, hsize]
        rfl
      have hwait : books.Waits id := by
        rcases (h.knows_iff id).mp hknows with ⟨vehicle, hride⟩ | hwait
        · simp [Rides, hseat] at hride
        · exact hwait
      obtain ⟨party, hparty, rfl⟩ := hwait
      obtain rfl : party.size = size :=
        Option.some.inj ((h.roster_of_waiting party hparty).symm.trans hsize)
      refine .left party.size hparty ?_
      have hleft : (books.backlog.dequeue party.id).1 = true := by
        rw [Backlog.fst_dequeue]
        exact h.waits_iff.mp ⟨party, hparty, rfl⟩
      simp [dropoff, hsize, hseat, hleft, Dispatch.leave]
    | some vehicle =>
      obtain ⟨slot, hslot⟩ := h.exists_slot hseat
      obtain rfl := h.fleet.id_eq_of_find? hslot
      have hpass := congrArg Prod.fst (@reallocate_eq books { id, size } slot h hseat hslot hsize)
      refine .alighted size slot _ _ hseat hslot hsize hpass rfl ?_
      simp only [dropoff, hsize, hseat]
      rfl

end Consistent

/-! ## Nobody is stranded -/

/-- Whoever waits is larger than the seats free on any vehicle. -/
def Settled (books : Dispatch) : Prop :=
  ∀ party ∈ books.waiting, ∀ slot ∈ books.fleet.slots, slot.available < party.size

/-- Consistent books that strand nobody. -/
structure Orderly (books : Dispatch) : Prop extends Consistent books where
  /-- Nobody is stranded. -/
  settled : books.Settled

namespace Consistent

variable {books : Dispatch} {party : Party} {slot : Slot}

/-- It is enough to look at the vehicles by their ids. -/
theorem settled_iff (h : books.Consistent) : books.Settled ↔ ∀ party ∈ books.waiting,
    ∀ id slot, books.fleet.find? id = some slot → slot.available < party.size := by
  constructor
  · intro hsettled party hparty id slot hslot
    obtain rfl := h.fleet.id_eq_of_find? hslot
    exact hsettled party hparty slot (h.fleet.mem_slots_iff.mpr hslot)
  · intro hall party hparty slot hslot
    exact hall party hparty _ slot (h.fleet.mem_slots_iff.mp hslot)

/-- Filling a vehicle leaves nobody stranded if nobody fits on any other vehicle. Whoever is passed
over is too large for what is left when it is its turn, and all the more in the end. -/
theorem settled_refill (h : books.Consistent)
    (hslot : books.fleet.find? slot.vehicle.id = some slot)
    (hothers : ∀ party ∈ books.waiting, ∀ id slot', id ≠ slot.vehicle.id →
      books.fleet.find? id = some slot' → slot'.available < party.size) :
    ((books.refill slot).books books.roster).Settled := by
  have hserved := h.refill hslot
  rw [hserved.consistent.settled_iff]
  intro party hparty id slot' hslot'
  have hleft : party ∈ books.waiting ∧ party ∉ fill slot.available.toNat books.waiting := by
    have hmem : party ∈ (books.refill slot).backlog.toList := hparty
    rw [hserved.waiting_eq, List.mem_filter] at hmem
    exact ⟨hmem.1, by simpa using hmem.2⟩
  by_cases hid : id = slot.vehicle.id
  · obtain ⟨available, hsum, hfind⟩ := hserved.exists_slot
    rw [hid] at hslot'
    obtain rfl := Option.some.inj (hslot'.symm.trans hfind)
    have hlt := lt_size_of_mem_of_notMem_fill hleft.1 hleft.2
    rw [UInt32.lt_iff_toNat_lt, Slot.available_withAvailable]
    omega
  · exact hothers party hleft.1 id slot' hid ((hserved.find?_eq id hid).symm.trans hslot')

end Consistent

namespace Orderly

variable {books books' : Dispatch} {party : Party} {slot : Slot}

theorem congr (h : books.Orderly) (same : books.SameRecords books') : books'.Orderly where
  toConsistent := h.toConsistent.congr same
  settled := by
    rw [Settled, waiting, ← same.backlog, ← same.fleet]
    exact h.settled

/-- Seats are taken, so nobody fits who did not fit before. -/
theorem board (h : books.Orderly) (hslot : books.fleet.find? slot.vehicle.id = some slot)
    (hnew : ¬ books.Knows party.id) (hsize : isSeatCount party.size = true)
    (hfit : party.size ≤ slot.available) : (books.board party slot).Orderly where
  toConsistent := h.toConsistent.board hslot hnew hsize hfit
  settled := by
    rw [(h.toConsistent.board hslot hnew hsize hfit).settled_iff]
    intro other hother id slot' hslot'
    have hall := h.settled_iff.mp h.settled other hother
    rw [h.find?_board party hslot] at hslot'
    split at hslot'
    next =>
      obtain rfl := Option.some.inj hslot'
      have hlt := hall _ slot hslot
      have hsub := UInt32.toNat_sub_of_le _ _ hfit
      rw [UInt32.lt_iff_toNat_lt] at hlt ⊢
      rw [Slot.available_withAvailable]
      omega
    next => exact hall id slot' hslot'

/-- Only parties that fit on no vehicle join the backlog. -/
theorem hold (h : books.Orderly) (hnew : ¬ books.Knows party.id)
    (hsize : isSeatCount party.size = true)
    (hfull : ∀ slot ∈ books.fleet.slots, slot.available < party.size) :
    (books.hold party).Orderly where
  toConsistent := h.toConsistent.hold hnew hsize
  settled := by
    intro other hother slot hslot
    rw [h.waiting_hold hnew hsize, List.mem_append, List.mem_singleton] at hother
    rcases hother with hother | rfl
    · exact h.settled other hother slot hslot
    · exact hfull slot hslot

/-- Those who stay did not fit before, and no seat gets free. -/
theorem leave (h : books.Orderly) {id : UInt64} (hwait : books.Waits id) :
    (books.leave id).Orderly where
  toConsistent := h.toConsistent.leave hwait
  settled := by
    intro party hparty
    rw [h.waiting_leave, List.mem_filter] at hparty
    exact h.settled party hparty.1

/-- The seats that get free are offered to everybody. -/
theorem refill_alight (h : books.Orderly) (hride : books.Rides party.id slot.vehicle.id)
    (hslot : books.fleet.find? slot.vehicle.id = some slot)
    (hsize : books.roster[party.id]? = some party.size) :
    (((books.alight party slot).refill (slot.withAvailable (slot.freed party.size))).books
      (books.roster.erase party.id)).Orderly := by
  have halight := h.alight hride hslot hsize
  have hfound := h.find?_alighted party hslot
  refine ⟨(halight.refill hfound).consistent, halight.settled_refill hfound ?_⟩
  intro other hother id slot' hid hslot'
  have hsame := h.fleet.find?_withAvailable_of_ne hslot (slot.freed party.size) hid
  exact h.settled_iff.mp h.settled other hother id slot' (hsame.symm.trans hslot')

theorem requestJourney (h : books.Orderly) (party : Party) :
    (books.requestJourney party).books.Orderly := by
  cases h.requested party with
  | invalid hsize heq =>
    rw [heq]
    exact h.congr ⟨rfl, rfl, rfl, rfl⟩
  | duplicate hsize hknows heq =>
    rw [heq]
    exact h.congr ⟨rfl, rfl, rfl, rfl⟩
  | assigned slot hsize hnew hslot hfit hleast heq =>
    rw [heq]
    exact (h.board hslot hnew hsize hfit).congr ⟨rfl, rfl, rfl, rfl⟩
  | queued hsize hnew hfull heq =>
    rw [heq]
    exact (h.hold hnew hsize hfull).congr ⟨rfl, rfl, rfl, rfl⟩

theorem dropoff (h : books.Orderly) (id : UInt64) : (books.dropoff id).books.Orderly := by
  cases h.ended id with
  | unknown hnew heq =>
    rw [heq]
    exact h.congr ⟨rfl, rfl, rfl, rfl⟩
  | left size hparty heq =>
    rw [heq]
    exact (h.leave ⟨_, hparty, rfl⟩).congr ⟨rfl, rfl, rfl, rfl⟩
  | alighted size slot pass report hride hslot hsize hpass hreport heq =>
    have hfilled := @refill_alight books { id, size } slot h hride hslot hsize
    rw [heq, hpass]
    exact hfilled.congr ⟨rfl, rfl, rfl, rfl⟩

/-- After a reset there is nobody who could be stranded. -/
theorem reset (h : books.Orderly) (vehicles : List Vehicle) :
    (books.reset vehicles).books.Orderly where
  toConsistent := consistent_empty (Fleet.sound_ofVehicles vehicles)
    (Fleet.allFree_ofVehicles vehicles) h.backlog.clear h.backlog.toList_clear
  settled := by
    intro party hparty
    have hnobody : (books.reset vehicles).books.waiting = [] := h.backlog.toList_clear
    simp [hnobody] at hparty

theorem locate (h : books.Orderly) (id : UInt64) : (books.locate id).2.Orderly :=
  h.congr ⟨rfl, rfl, rfl, rfl⟩

end Orderly

theorem orderly_ofReserve (reserve : Nat) : (ofReserve reserve).Orderly where
  toConsistent := consistent_ofReserve reserve
  settled := by
    intro party hparty
    have hnobody : (ofReserve reserve).waiting = [] := Backlog.toList_ofReserve reserve
    simp [hnobody] at hparty

end Dispatch

end RideShare
