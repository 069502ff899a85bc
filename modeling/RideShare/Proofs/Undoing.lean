import RideShare.Proofs.Frame
import RideShare.Proofs.Refusals

/-!
# A request undone

A party asks for a journey, and ends it at once. Nobody can tell afterwards that it was there: it has
the seats given back that it took, or has left the end of the line.

That nobody else gets the seats is not to be seen from the vehicle, which may well have seats free
while others wait, and is offered to them. It holds because nobody who waits fits on any vehicle in
the first place, and the vehicle has just as many seats free as before the request.

What may differ is where the memory keeps those who wait, the counters, and the place of one vehicle
in its bucket: it has left the bucket, and come back to its end.

## Main statements

* `Fleet.Sound.slots_withAvailable_twice`: free seats can be set back;
* `Dispatch.Orderly.undone_board` and `Dispatch.Consistent.undone_hold`: a party that gets off, and
  one that steps out of the line;
* `Engine.leaves_no_trace`: either, at any point of any run.
-/

namespace RideShare

/-! ## Setting seats back -/

/-- Seats that are taken come back as they were. -/
theorem Slot.Proper.freed_withAvailable {slot : Slot} (h : slot.Proper) {size : UInt32}
    (hfit : size ≤ slot.available) :
    (slot.withAvailable (slot.available - size)).freed size = slot.available := by
  have htaken : (slot.withAvailable (slot.available - size)).Proper :=
    ⟨h.id_ne, h.isSeatCount_capacity, h.sub_le hfit⟩
  have hsub := UInt32.toNat_sub_of_le _ _ hfit
  have hle := h.toNat_le
  rw [UInt32.le_iff_toNat_le] at hfit
  rw [← UInt32.toNat_inj, htaken.toNat_freed, Slot.vehicle_withAvailable,
    Slot.available_withAvailable, hsub]
  omega

namespace Fleet.Sound

variable {fleet : Fleet} {id : UInt64} {slot : Slot} {available : UInt32}

theorem slots_withAvailable_twice (h : fleet.Sound) (hslot : fleet.find? id = some slot)
    (available : UInt32) :
    ((fleet.withAvailable id available).withAvailable id slot.available).slots = fleet.slots := by
  obtain ⟨i, hindex, hi⟩ := h.exists_index hslot
  have hset := getElem?_slots_setAvailable hi available
  have hback := getElem?_slots_setAvailable ((hset i).trans (if_pos rfl)) slot.available
  simp only [Fleet.withAvailable, hindex, index_setAvailable]
  refine Array.ext_getElem? fun j ↦ ?_
  rw [hback, hset]
  split
  next hij => rw [← hij, hi]; rfl
  next => rfl

theorem sameBut_withAvailable_twice (h : fleet.Sound) (hslot : fleet.find? id = some slot)
    (hle : available ≤ slot.vehicle.capacity) :
    fleet.SameBut ((fleet.withAvailable id available).withAvailable id slot.available) id := by
  have hset := (h.find?_withAvailable hslot available id).trans (if_pos rfl)
  have hfree := (h.proper_of_find? hslot).available_le
  exact (h.sameBut_withAvailable hslot hle).trans
    ((h.withAvailable hslot hle).sameBut_withAvailable hset hfree)

theorem find?_withAvailable_twice (h : fleet.Sound) (hslot : fleet.find? id = some slot)
    (hle : available ≤ slot.vehicle.capacity) (other : UInt64) :
    ((fleet.withAvailable id available).withAvailable id slot.available).find? other =
      fleet.find? other := by
  have hset := (h.find?_withAvailable hslot available id).trans (if_pos rfl)
  rw [(h.withAvailable hslot hle).find?_withAvailable hset, h.find?_withAvailable hslot]
  split
  next hother => rw [← hother, hslot]; rfl
  next => rfl

end Fleet.Sound

/-- The histogram depends on who waits alone. -/
theorem Backlog.Sound.histogram_eq_of_toList_eq {backlog backlog' : Backlog} (h : backlog.Sound)
    (h' : backlog'.Sound) (hlist : backlog'.toList = backlog.toList) :
    backlog'.histogram = backlog.histogram := by
  have hcount (level : Nat) : backlog'.histogram.getD level 0 = backlog.histogram.getD level 0 := by
    rw [h'.histogram_eq, h.histogram_eq, hlist]
  refine Array.ext (h'.size_histogram.trans h.size_histogram.symm) fun level hlt' hlt ↦ ?_
  simpa [Array.getD_eq_getD_getElem?, hlt, hlt'] using hcount level

namespace Dispatch

/-! ## Filling a vehicle for nobody -/

/-- If nobody who waits fits, the seats are offered in vain. -/
theorem refill_of_nobody {books : Dispatch} {slot : Slot}
    (hnobody : fill slot.available.toNat books.waiting = []) :
    books.refill slot = Pass.ofBooks books := by
  rw [refill, hnobody]
  rfl

/-! ## Without a trace -/

/-- The books after a party has come and gone say what they said before. In the `middle` it was
there. -/
structure LeavesNoTrace (before middle after : Dispatch) (party : Party) : Prop where
  /-- All parties have the sizes they had. -/
  roster_eq : ∀ id : UInt64, after.roster[id]? = before.roster[id]?
  /-- They ride where they did. -/
  get?_eq : ∀ id, after.seating.get? id = before.seating.get? id
  /-- They wait where they did. -/
  waiting_eq : after.waiting = before.waiting
  /-- Those who wait are counted by size as they were. -/
  histogram_eq : after.backlog.histogram = before.backlog.histogram
  /-- All vehicles have the seats free that they had. -/
  slots_eq : after.fleet.slots = before.fleet.slots
  /-- They are found by their ids. -/
  find?_eq : ∀ vehicle, after.fleet.find? vehicle = before.fleet.find? vehicle
  /-- At most the vehicle on which the party was has another place in its bucket. -/
  fleet_eq : after.fleet = before.fleet ∨
    ∃ vehicle, middle.Rides party.id vehicle ∧ before.fleet.SameBut after.fleet vehicle
  /-- Nobody who waited when the party was there has got a seat. -/
  not_rides : ∀ id vehicle, middle.Waits id → ¬ after.Rides id vehicle

theorem LeavesNoTrace.congr {before middle middle' after after' : Dispatch} {party : Party}
    (h : before.LeavesNoTrace middle after party) (hmiddle : middle.SameRecords middle')
    (hafter : after.SameRecords after') : before.LeavesNoTrace middle' after' party where
  roster_eq := by simpa only [hafter.roster] using h.roster_eq
  get?_eq := by simpa only [hafter.seating] using h.get?_eq
  waiting_eq := hafter.waiting_eq.symm.trans h.waiting_eq
  histogram_eq := by simpa only [hafter.backlog] using h.histogram_eq
  slots_eq := by simpa only [hafter.fleet] using h.slots_eq
  find?_eq := by simpa only [hafter.fleet] using h.find?_eq
  fleet_eq := by simpa only [hafter.fleet, hmiddle.rides_iff] using h.fleet_eq
  not_rides id vehicle hwait hride := by
    rw [Waits, ← hmiddle.waiting_eq] at hwait
    exact h.not_rides id vehicle hwait ((hafter.rides_iff id vehicle).mpr hride)

theorem SameRecords.alight {books books' : Dispatch} (same : books.SameRecords books')
    (party : Party) (slot : Slot) : (books.alight party slot).SameRecords (books'.alight party slot) :=
  ⟨congrArg (Fleet.withAvailable · _ _) same.fleet, same.backlog,
    congrArg (Seating.erase · party.id) same.seating,
    congrArg (Std.HashMap.erase · party.id) same.roster⟩

theorem SameRecords.leave {books books' : Dispatch} (same : books.SameRecords books')
    (id : UInt64) : (books.leave id).SameRecords (books'.leave id) :=
  ⟨same.fleet, congrArg (fun backlog ↦ (backlog.dequeue id).2) same.backlog, same.seating,
    congrArg (Std.HashMap.erase · id) same.roster⟩

variable {books : Dispatch} {party : Party} {slot : Slot}

namespace Consistent

/-- The party takes seats and gives them back. -/
theorem leavesNoTrace_board (h : books.Consistent)
    (hslot : books.fleet.find? slot.vehicle.id = some slot) (hnew : ¬ books.Knows party.id)
    (hfit : party.size ≤ slot.available) :
    books.LeavesNoTrace (books.board party slot)
      ((books.board party slot).alight party (slot.withAvailable (slot.available - party.size)))
      party := by
  have hproper := h.fleet.proper_of_find? hslot
  have hle : slot.available - party.size ≤ slot.vehicle.capacity := hproper.sub_le hfit
  have hout := h.get?_of_not_knows hnew
  have hseat (id : UInt64) : ((books.board party slot).alight party
      (slot.withAvailable (slot.available - party.size))).seating.get? id =
      books.seating.get? id := by
    rw [Dispatch.alight, Dispatch.board, Seating.get?_erase, Seating.get?_set]
    split
    next heq => rw [← heq, hout]
    next => rfl
  have hfleet : ((books.board party slot).alight party
      (slot.withAvailable (slot.available - party.size))).fleet =
      (books.fleet.withAvailable slot.vehicle.id (slot.available - party.size)).withAvailable
        slot.vehicle.id slot.available := by
    rw [Dispatch.alight, Dispatch.board, hproper.freed_withAvailable hfit,
      Slot.vehicle_withAvailable]
  refine ⟨fun id ↦ ?_, hseat, rfl, rfl, ?_, ?_, .inr ⟨slot.vehicle.id, ?_, ?_⟩,
    fun id vehicle hwait hride ↦ ?_⟩
  · rw [getElem?_roster_alight, getElem?_roster_board]
    split
    next heq => rw [← heq, Std.HashMap.getElem?_eq_none hnew]
    next => rfl
  · rw [hfleet, h.fleet.slots_withAvailable_twice hslot]
  · rw [hfleet]
    exact h.fleet.find?_withAvailable_twice hslot hle
  · rw [rides_board, if_pos rfl]
  · rw [hfleet]
    exact h.fleet.sameBut_withAvailable_twice hslot hle
  · rw [Rides, hseat] at hride
    exact h.not_waits hride hwait

/-- The party joins the line and leaves it. -/
theorem leavesNoTrace_hold (h : books.Consistent) (hnew : ¬ books.Knows party.id)
    (hsize : isSeatCount party.size = true) :
    books.LeavesNoTrace (books.hold party) ((books.hold party).leave party.id) party := by
  have hhold := h.hold hnew hsize
  have hwaiting : ((books.hold party).leave party.id).waiting = books.waiting := by
    have hothers : books.waiting.filter (·.id ≠ party.id) = books.waiting :=
      List.filter_eq_self.mpr fun other hother ↦ decide_eq_true fun hid ↦
        h.not_waits_of_not_knows hnew ⟨other, hother, hid⟩
    rw [hhold.waiting_leave, h.waiting_hold hnew hsize, List.filter_append, hothers]
    simp
  refine ⟨fun id ↦ ?_, fun _ ↦ rfl, hwaiting, ?_, rfl, fun _ ↦ rfl, .inl rfl,
    fun id vehicle hwait hride ↦ ?_⟩
  · rw [getElem?_roster_leave, getElem?_roster_hold]
    split
    next heq => rw [← heq, Std.HashMap.getElem?_eq_none hnew]
    next => rfl
  · exact h.backlog.histogram_eq_of_toList_eq ((h.backlog.enqueue party).dequeue party.id) hwaiting
  · exact hhold.not_waits hride hwait

end Consistent

/-! ## The end of the journey -/

/-- The party gets off, and nobody gets on. -/
theorem Orderly.undone_board (h : books.Orderly)
    (hslot : books.fleet.find? slot.vehicle.id = some slot) (hnew : ¬ books.Knows party.id)
    (hsize : isSeatCount party.size = true) (hfit : party.size ≤ slot.available)
    {middle : Dispatch} (same : (books.board party slot).SameRecords middle) :
    books.LeavesNoTrace middle (middle.dropoff party.id).books party ∧
      (middle.dropoff party.id).answer = .droppedOff ∧
      ∀ report ∈ (middle.dropoff party.id).batch.reports, report.assigned = [] := by
  have hmiddle : middle.Orderly := (h.board hslot hnew hsize hfit).congr same
  have hknows : middle.Knows party.id := (same.knows_iff _).mp ((knows_board ..).mpr (.inl rfl))
  have hride : middle.Rides party.id slot.vehicle.id := by
    rw [← same.rides_iff, rides_board, if_pos rfl]
  cases hmiddle.ended party.id with
  | unknown hnew' heq => exact absurd hknows hnew'
  | left size hparty heq => exact absurd ⟨_, hparty, rfl⟩ (hmiddle.not_waits hride)
  | alighted size slot' pass report hride' hslot' hsize' hpass hreport heq =>
    obtain rfl : party.size = size := by
      rw [← same.roster, getElem?_roster_board, if_pos rfl] at hsize'
      exact Option.some.inj hsize'
    obtain rfl : slot.withAvailable (slot.available - party.size) = slot' := by
      have hid := Option.some.inj (hride.symm.trans hride')
      rw [← same.fleet, h.find?_board party hslot, if_pos hid] at hslot'
      exact Option.some.inj hslot'
    have hfreed := (h.fleet.proper_of_find? hslot).freed_withAvailable hfit
    -- The seats offered now were there before the request, and nobody who waits fitted on them.
    have hnobody : fill slot.available.toNat middle.waiting = [] := by
      rw [← same.waiting_eq]
      exact fill_eq_nil fun other hother ↦ UInt32.lt_iff_toNat_lt.mp
        (h.settled other hother slot (h.fleet.mem_slots_iff.mpr hslot))
    have hrefill : pass = Pass.ofBooks
        (middle.alight party (slot.withAvailable (slot.available - party.size))) := by
      rw [hpass, refill_of_nobody]
      rwa [hfreed]
    have hassigned : report.assigned = [] := by
      rw [hreport, @Consistent.reallocate_eq middle party _ hmiddle.toConsistent hride' hslot' hsize',
        hfreed]
      exact hnobody
    rw [heq, hrefill]
    refine ⟨(h.leavesNoTrace_board hslot hnew hfit).congr same ?_, rfl, by simp [hassigned]⟩
    exact (same.alight party _).trans ⟨rfl, rfl, rfl, rfl⟩

/-- The party steps out of the line. -/
theorem Consistent.undone_hold (h : books.Consistent) (hnew : ¬ books.Knows party.id)
    (hsize : isSeatCount party.size = true) {middle : Dispatch}
    (same : (books.hold party).SameRecords middle) :
    books.LeavesNoTrace middle (middle.dropoff party.id).books party ∧
      (middle.dropoff party.id).answer = .leftQueue ∧
      ∀ report ∈ (middle.dropoff party.id).batch.reports, report.assigned = [] := by
  have hmiddle : middle.Consistent := (h.hold hnew hsize).congr same
  have hwait : middle.Waits party.id := by
    rw [Waits, ← same.waiting_eq]
    exact (h.waits_hold hnew hsize _).mpr (.inr rfl)
  cases hmiddle.ended party.id with
  | unknown hnew' heq => exact absurd ((hmiddle.knows_iff _).mpr (.inr hwait)) hnew'
  | alighted size slot pass report hride hslot hsize' hpass hreport heq =>
    exact absurd hwait (hmiddle.not_waits hride)
  | left size hparty heq =>
    rw [heq]
    refine ⟨(h.leavesNoTrace_hold hnew hsize).congr same ?_, rfl, by simp⟩
    exact (same.leave party.id).trans ⟨rfl, rfl, rfl, rfl⟩

/-- Whatever becomes of the request, it can be undone. -/
theorem Orderly.undone (h : books.Orderly) (hnew : ¬ books.Knows party.id)
    (hsize : isSeatCount party.size = true) {middle : Dispatch}
    (same : (books.apply (.requestJourney party)).SameRecords middle) :
    books.LeavesNoTrace middle (middle.dropoff party.id).books party ∧
    ((books.requestJourney party).answer = .assigned ∧
        (middle.dropoff party.id).answer = .droppedOff ∨
      (books.requestJourney party).answer = .queued ∧
        (middle.dropoff party.id).answer = .leftQueue) ∧
    ∀ report ∈ (middle.dropoff party.id).batch.reports, report.assigned = [] := by
  rw [Dispatch.apply] at same
  cases h.requested party with
  | invalid hsize' heq => simp [hsize] at hsize'
  | duplicate hsize' hknows heq => exact absurd hknows hnew
  | assigned slot hsize' hnew' hslot hfit hleast heq =>
    rw [heq] at same
    obtain ⟨htrace, hanswer, hreports⟩ := h.undone_board hslot hnew hsize hfit
      ⟨same.fleet, same.backlog, same.seating, same.roster⟩
    exact ⟨htrace, .inl ⟨by rw [heq], hanswer⟩, hreports⟩
  | queued hsize' hnew' hfull heq =>
    rw [heq] at same
    obtain ⟨htrace, hanswer, hreports⟩ := h.undone_hold hnew hsize
      ⟨same.fleet, same.backlog, same.seating, same.roster⟩
    exact ⟨htrace, .inr ⟨by rw [heq], hanswer⟩, hreports⟩

end Dispatch

/-! ## Runs -/

namespace Engine

/-- At any point of any run, a request of a party that is not in the books, of a size that parties
have, is undone by the end of the journey right after it. Nobody gets a seat by this. -/
theorem leaves_no_trace (reserve : Nat) (operations : List Operation) {party : Party}
    (hnew : ¬ ((ofReserve reserve).run operations).books.Knows party.id)
    (hsize : isSeatCount party.size = true) :
    let before := (ofReserve reserve).run operations
    let middle := (before.requestJourney party).engine
    let after := (middle.dropoff party.id).engine
    before.books.LeavesNoTrace middle.books after.books party ∧
    ((before.books.requestJourney party).answer = .assigned ∧
        (middle.books.dropoff party.id).answer = .droppedOff ∨
      (before.books.requestJourney party).answer = .queued ∧
        (middle.books.dropoff party.id).answer = .leftQueue) ∧
    ∀ report ∈ (middle.books.dropoff party.id).batch.reports, report.assigned = [] := by
  intro before middle after
  have hrequest := before.sameRecords_apply (.requestJourney party)
  obtain ⟨htrace, hanswers, hreports⟩ := (orderly_run reserve operations).undone hnew hsize hrequest
  exact ⟨htrace.congr (.refl _) (middle.sameRecords_apply (.dropoff party.id)), hanswers, hreports⟩

/-- A party of three comes and goes while one of five waits. -/
theorem leaves_no_trace_of_waiting :
    let before := (ofReserve 0).run [.reset [⟨1, 4⟩], .requestJourney ⟨7, 5⟩]
    let middle := (before.requestJourney ⟨8, 3⟩).engine
    before.books.LeavesNoTrace middle.books (middle.dropoff 8).engine.books ⟨8, 3⟩ := by
  intro before middle
  have hunknown : before.books.roster.contains 8 = false := by unfold before; cbv
  have hnew : ¬ before.books.Knows 8 := by
    rw [Dispatch.Knows, ← Std.HashMap.contains_iff_mem, hunknown]
    exact Bool.false_ne_true
  exact (@leaves_no_trace 0 _ ⟨8, 3⟩ hnew (by decide)).1

end Engine

end RideShare
