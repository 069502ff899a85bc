import Mathlib.Data.List.Nodup
import RideShare.Proofs.Recording
import RideShare.Proofs.Refilling

/-!
# What the report of a pass says

When a party alights, its seats are offered to those who wait, and a report is made of it. It is put
together on the way: the free seats are those that the fleet counts when the party has left, those
who wait are counted before the first of them is seated, some numbers are taken from the plan and
others from what came of it, and the seats that remain are asked for at the end. So it is not plain
that the numbers belong together.

They do. All who are planned for are seated, so the plan and what came of it are the same list, and
the seats free after the pass are those free before less the people on that list. Nor does a number
wrap. The seats of a vehicle are few, and those who wait are fewer than there are ids: each of them
has one of its own, and the party that alights has yet another.

## Main statements

* `Dispatch.Consistent.length_waiting_lt`: those who wait can be counted in a word;
* `Dispatch.Consistent.batch_dropoff`: the records of the end of a ride;
* `Engine.report_balances`: at any point of any run, what is published of it, and that it adds up.
-/

namespace RideShare

open Journal

/-! ## Numbers that fit a word -/

/-- The people in parties that are not too many are counted without a wrap. -/
theorem toNat_people {parties : List Party} (h : headcount parties < 2 ^ 32) :
    (people parties).toNat = headcount parties := by
  have hfold (parties : List Party) (sum : UInt32)
      (h : sum.toNat + headcount parties < 2 ^ 32) :
      (parties.foldl (fun sum party ↦ sum + party.size) sum).toNat =
        sum.toNat + headcount parties := by
    induction parties generalizing sum with
    | nil => rfl
    | cons party rest ih =>
      rw [headcount_cons] at h
      have hsum : (sum + party.size).toNat = sum.toNat + party.size.toNat := by
        rw [UInt32.toNat_add, Nat.mod_eq_of_lt (by omega)]
      rw [List.foldl_cons, ih _ (by omega), hsum, headcount_cons, Nat.add_assoc]
  rw [people, hfold parties 0 (by simpa using h)]
  exact Nat.zero_add _

/-- There are no more different ids than words. -/
theorem length_ids_le {ids : List UInt64} (h : ids.Nodup) : ids.length ≤ UInt64.size := by
  have hnodup : (ids.map UInt64.toNat).Nodup := h.map fun _ _ ↦ UInt64.toNat_inj.mp
  have hlt : ∀ n ∈ ids.map UInt64.toNat, n < UInt64.size :=
    List.forall_mem_map.mpr fun id _ ↦ id.toNat_lt
  have hlength := Chain.length_le_of_nodup hnodup hlt
  rwa [List.length_map] at hlength

namespace Dispatch

/-- While somebody rides, those who wait can be counted in a word. -/
theorem Consistent.length_waiting_lt {books : Dispatch} (h : books.Consistent) {id vehicle : UInt64}
    (hride : books.Rides id vehicle) : books.waiting.length < UInt64.size := by
  have hnot : id ∉ books.waiting.map Party.id := fun hmem ↦
    h.not_waits hride (List.mem_map.mp hmem)
  have hlength := length_ids_le (List.nodup_cons.mpr ⟨hnot, h.backlog.nodup_ids⟩)
  rw [List.length_cons, List.length_map] at hlength
  exact hlength

end Dispatch

/-! ## The records of the end of a ride -/

/-- What the report of a pass says of the books before and after the end of a ride, and of the
parties seated in between. No number in it has wrapped. -/
structure Journal.Report.Balances (report : Report) (books books' : Dispatch) (rider : Party)
    (vehicle : UInt64) (taken : List Party) : Prop where
  /-- It is about the vehicle of the party that left. -/
  vehicle_eq : report.vehicle = vehicle
  /-- The seats given back are those of the party. -/
  seatsReleased_eq : report.seatsReleased = rider.size
  /-- They are added to those that were free. -/
  totalFree_eq :
    report.totalFree.toNat = (books.availableSeats vehicle).toNat + rider.size.toNat
  /-- The vehicle has that many seats. -/
  totalFree_le : ∃ loaded, books.fleet.get? vehicle = some loaded ∧
    report.totalFree ≤ loaded.capacity
  /-- Everybody who waited before is counted. -/
  waiting_eq : report.waiting.toNat = books.waiting.length
  /-- As many parties were chosen as are seated. -/
  selected_eq : report.selected.toNat = taken.length
  assignedCount_eq : report.assignedCount.toNat = taken.length
  /-- These parties are listed. -/
  assigned_eq : report.assigned = taken
  /-- The people in them are counted. -/
  people_eq : report.people.toNat = headcount taken
  /-- The seats that remain are those free afterwards. -/
  remaining_eq : report.remaining = books'.availableSeats vehicle
  /-- The seats that were free are taken by those people or remain. -/
  totalFree_eq_add : report.totalFree.toNat = report.people.toNat + report.remaining.toNat

theorem Journal.Report.Balances.congr {report : Report} {books books' books'' : Dispatch}
    {rider : Party} {vehicle : UInt64} {taken : List Party}
    (h : report.Balances books books' rider vehicle taken) (same : books'.SameRecords books'') :
    report.Balances books books'' rider vehicle taken :=
  { h with
    remaining_eq := by simpa only [Dispatch.availableSeats, same.fleet] using h.remaining_eq }

/-- The events of the end of a ride. -/
def alightingEvents (rider : Party) (vehicle : UInt64) (taken : List Party) : List Event :=
  { kind := .droppedOff, party := rider, vehicle } ::
    taken.map fun party ↦ { kind := .reallocated, party, vehicle }

namespace Dispatch.Consistent

variable {books : Dispatch} {rider : Party} {vehicle : UInt64} {slot : Slot}

/-- The report of a pass balances if the fleet afterwards is the one the pass leaves. -/
theorem balances_reallocate (h : books.Consistent) (hride : books.Rides rider.id slot.vehicle.id)
    (hslot : books.fleet.find? slot.vehicle.id = some slot)
    (hsize : books.roster[rider.id]? = some rider.size) {books' : Dispatch}
    (hfleet : books'.fleet =
      ((books.alight rider slot).refill (slot.withAvailable (slot.freed rider.size))).fleet) :
    (reallocate books.fleet (books.seating.erase rider.id) books.backlog slot.vehicle.id
        rider.size).2.Balances books books' rider slot.vehicle.id
      (fill (slot.freed rider.size).toNat books.waiting) := by
  have hproper := h.fleet.proper_of_find? hslot
  have hcapacity := UInt32.le_iff_toNat_le.mp (hproper.freed_le rider.size)
  -- What remains is known from the pass, which has seated all who were chosen.
  obtain ⟨available, hsum, hfind⟩ :=
    ((h.alight hride hslot hsize).refill (h.find?_alighted rider hslot)).exists_slot
  rw [h.reallocate_eq hride hslot hsize]
  generalize (books.alight rider slot).refill _ = pass at hfind hfleet ⊢
  have hremaining : pass.fleet.availableOf slot.vehicle.id = available :=
    Fleet.availableOf_eq hfind
  change available.toNat + headcount (fill (slot.freed rider.size).toNat books.waiting) =
    (slot.freed rider.size).toNat at hsum
  generalize htaken : fill (slot.freed rider.size).toNat books.waiting = taken at hsum ⊢
  have hlength : taken.length < UInt64.size :=
    Nat.lt_of_le_of_lt (htaken ▸ fill_sublist _ _).length_le (h.length_waiting_lt hride)
  have hpeople : (people taken).toNat = headcount taken := by
    have := hproper.toNat_le
    exact toNat_people (by omega)
  refine ⟨rfl, rfl, ?_, ⟨slot.vehicle, ?_, hproper.freed_le _⟩, ?_, ?_, ?_, rfl, hpeople, ?_, ?_⟩
  · exact h.toNat_freed_eq hride hslot hsize
  · rw [Fleet.get?, hslot, Option.map_some]
  · exact UInt64.toNat_ofNat_of_lt (h.length_waiting_lt hride)
  · exact UInt64.toNat_ofNat_of_lt hlength
  · exact UInt64.toNat_ofNat_of_lt hlength
  · rw [availableSeats, hfleet]
  · change (slot.freed rider.size).toNat =
      (people taken).toNat + (pass.fleet.availableOf slot.vehicle.id).toNat
    rw [hremaining, hpeople, Nat.add_comm, hsum]

/-- The end of a ride is recorded by an event for the party that leaves, one for each party that is
seated, and a report that balances. -/
theorem batch_dropoff (h : books.Consistent) (hride : books.Rides rider.id vehicle)
    (hsize : books.roster[rider.id]? = some rider.size) :
    let taken := fill ((books.availableSeats vehicle).toNat + rider.size.toNat) books.waiting
    ∃ report, (books.dropoff rider.id).answer = .droppedOff ∧
      (books.dropoff rider.id).batch =
        { events := alightingEvents rider vehicle taken, reports := [report] } ∧
      report.Balances books (books.apply (.dropoff rider.id)) rider vehicle taken := by
  cases h.ended rider.id with
  | unknown hnew heq => exact absurd ((h.knows_iff _).mpr (.inl ⟨vehicle, hride⟩)) hnew
  | left size hparty heq => exact absurd ⟨_, hparty, rfl⟩ (h.not_waits hride)
  | alighted size slot pass report hride' hslot hsize' hpass hreport heq =>
    obtain rfl : vehicle = slot.vehicle.id := Option.some.inj (hride.symm.trans hride')
    obtain rfl : rider.size = size := Option.some.inj (hsize.symm.trans hsize')
    have hevents : pass.events.toList = (fill (slot.freed rider.size).toNat books.waiting).map
        fun party ↦ { kind := .reallocated, party, vehicle := slot.vehicle.id } := by
      have hserved := (h.alight hride hslot hsize).refill (h.find?_alighted rider hslot)
      rw [hpass]
      exact hserved.events_eq
    have hfleet : (books.apply (.dropoff rider.id)).fleet = pass.fleet := by
      rw [apply, heq]
      rfl
    rw [← h.toNat_freed_eq hride hslot hsize]
    refine ⟨report, by rw [heq], by rw [heq, hevents]; rfl, ?_⟩
    rw [hreport]
    exact h.balances_reallocate hride hslot hsize (hfleet.trans (congrArg Pass.fleet hpass))

end Dispatch.Consistent

/-- The parties seated are those that ride now and did not before. -/
theorem Dispatch.Reseated.mem_taken_iff {books books' : Dispatch} {rider : Party} {vehicle : UInt64}
    {taken : List Party} (h : books.Reseated books' rider vehicle taken)
    (hbooks : books.Consistent) (hwait : taken ⊆ books.waiting) (id : UInt64) :
    id ∈ taken.map Party.id ↔
      (∃ other, books'.Rides id other) ∧ ¬ ∃ other, books.Rides id other := by
  constructor
  · intro hid
    refine ⟨⟨vehicle, (h.rides_iff id vehicle).mpr (.inl ⟨hid, rfl⟩)⟩, fun ⟨other, hride⟩ ↦ ?_⟩
    obtain ⟨party, hparty, rfl⟩ := List.mem_map.mp hid
    exact hbooks.not_waits hride ⟨party, hwait hparty, rfl⟩
  · rintro ⟨⟨other, hride⟩, hnot⟩
    rcases (h.rides_iff id other).mp hride with ⟨hid, -⟩ | ⟨-, hbefore⟩
    · exact hid
    · exact absurd ⟨other, hbefore⟩ hnot

/-! ## Runs -/

namespace Engine

/-- Whoever is told everything from the start is told everything at any point of a run. -/
theorem recorded_run (reserve : Nat) {number : Nat} {manager : Manager}
    (hmanager : manager.Records number) {operations : List Operation}
    (hkeeps : ∀ operation ∈ operations, operation.KeepsRecording number) :
    ((ofReserve reserve).run (.setManager (some manager) :: operations)).Recorded number := by
  have hfirst : ((ofReserve reserve).setManager (some manager)).Recorded number :=
    ⟨manager, rfl, hmanager⟩
  exact hfirst.run hkeeps

/-- At any point of any run, while everything is recorded, the end of a ride is published as one
batch: that the party has left, that the parties who now ride have been seated, in the order in
which they waited, and a report that balances. -/
theorem report_balances (reserve : Nat) (operations : List Operation) {number : Nat} {rider : Party}
    {vehicle : UInt64}
    (hrecorded : ((ofReserve reserve).run operations).Recorded number)
    (hride : ((ofReserve reserve).run operations).books.Rides rider.id vehicle)
    (hsize : ((ofReserve reserve).run operations).books.roster[rider.id]? = some rider.size) :
    let engine := (ofReserve reserve).run operations
    let after := (engine.dropoff rider.id).engine
    (engine.dropoff rider.id).answer = .ok .droppedOff ∧
    ∃ (taken : List Party) (report : Report),
      keptBy number (engine.dropoff rider.id).calls =
        .event { kind := .droppedOff, party := rider, vehicle, time := engine.clock } ::
          taken.map (fun party ↦
            .event { kind := .reallocated, party, vehicle, time := engine.clock }) ++
          [.report report] ∧
      taken.Sublist engine.books.waiting ∧
      (∀ id, id ∈ taken.map Party.id ↔
        (∃ other, after.books.Rides id other) ∧ ¬ ∃ other, engine.books.Rides id other) ∧
      report.Balances engine.books after.books rider vehicle taken := by
  intro engine after
  have h : engine.books.Consistent := (orderly_run reserve operations).toConsistent
  have hrefuses : engine.RefusesNothing := by
    obtain ⟨manager, hmanager, hrecords⟩ := hrecorded
    rintro other hother
    exact Option.some.inj (hmanager.symm.trans hother) ▸ hrecords.refusesNothing
  obtain ⟨report, hanswer, hbatch, hbalances⟩ := h.batch_dropoff hride hsize
  have hsame := engine.sameRecords_apply (.dropoff rider.id)
  have hreseated := (h.reseated hride hsize).congr hsame
  have hsub := fill_sublist ((engine.books.availableSeats vehicle).toNat + rider.size.toNat)
    engine.books.waiting
  refine ⟨?_, _, report, ?_, hsub, hreseated.mem_taken_iff h hsub.subset, ?_⟩
  · rw [← hanswer]
    exact answer_publish hrefuses engine.clock (engine.books.dropoff rider.id)
  · have hkept : keptBy number (engine.perform (.dropoff rider.id)).calls = _ :=
      hrecorded.keptBy_perform trivial
    refine hkept.trans ?_
    change ((engine.books.dropoff rider.id).batch.stamped engine.clock).records = _
    rw [hbatch]
    simp [Batch.stamped, Batch.records, alightingEvents]
  · exact hbalances.congr hsame

/-- A party of three alights from a vehicle of four, and two parties of two get on. -/
theorem report_balances_two :
    let manager := Manager.ofPublishers [.locator, .recorder]
    let rider : Party := ⟨5, 3⟩
    let operations : List Operation := [.setManager (some manager), .reset [⟨1, 4⟩],
      .requestJourney rider, .requestJourney ⟨7, 2⟩, .requestJourney ⟨8, 3⟩,
      .requestJourney ⟨9, 2⟩]
    ((ofReserve 0).run operations).Recorded 1 ∧
    ((ofReserve 0).run operations).books.Rides rider.id 1 ∧
    ((ofReserve 0).run operations).books.roster[rider.id]? = some rider.size ∧
    ∃ (taken : List Party) (report : Report), taken.length = 2 ∧
      taken.Sublist ((ofReserve 0).run operations).books.waiting ∧
      report.Balances ((ofReserve 0).run operations).books
        (((ofReserve 0).run operations).dropoff rider.id).engine.books rider 1 taken := by
  intro manager rider operations
  have hmanager : manager.Records 1 := by
    refine ⟨rfl, by decide, Manager.refusesNothing_ofPublishers ?_⟩
    simp only [List.forall_mem_cons, List.not_mem_nil, false_imp_iff, implies_true, and_true]
    exact ⟨fun _ ↦ rfl, fun _ ↦ rfl⟩
  have hrecorded : ((ofReserve 0).run operations).Recorded 1 :=
    recorded_run 0 hmanager (by simp [Operation.KeepsRecording])
  have hride : ((ofReserve 0).run operations).books.Rides rider.id 1 := by
    unfold operations manager rider Dispatch.Rides
    cbv
  have hsize : ((ofReserve 0).run operations).books.roster[rider.id]? = some rider.size := by
    unfold operations manager rider
    cbv
  have hcount : (keptBy 1 (((ofReserve 0).run operations).dropoff rider.id).calls).length = 4 := by
    unfold operations manager rider
    cbv
  obtain ⟨-, taken, report, hkept, hsub, -, hbalances⟩ :=
    report_balances 0 operations hrecorded hride hsize
  rw [hkept, List.cons_append, List.length_cons, List.length_append, List.length_map,
    List.length_singleton] at hcount
  exact ⟨hrecorded, hride, hsize, taken, report, by omega, hsub, hbalances⟩

end Engine

end RideShare
