import RideShare.Proofs.Choice
import RideShare.Proofs.Dispatch

/-!
# A pass over the backlog

The parties chosen for a vehicle are seated one after the other, and each step may be refused. It
never is: the sizes of those chosen add up to no more than the free seats, and all of them wait.
`Pass.Ready` says so of the parties still to be seated; seating the first of them leaves the pass
ready for the rest.

The books are consistent before, between and after the steps. The party whose seats are handed out
is out of the books by then, so the roster of a pass is the roster without it.

## Main statements

* `Pass.Ready.seatAll_eq`: nobody is refused;
* `Pass.Ready.served`: what a pass changes, and what it leaves alone.
-/

namespace RideShare

open Journal

namespace Pass

/-- The books as they are during a pass. -/
def books (pass : Pass) (roster : Std.HashMap UInt64 UInt32) : Dispatch :=
  { fleet := pass.fleet, backlog := pass.backlog, seating := pass.seating, roster }

/-- Seat one party, which is not refused. -/
def seat (vehicle : UInt64) (pass : Pass) (party : Party) : Pass :=
  { fleet := (pass.fleet.tryReserve vehicle party.size).2
    seating := pass.seating.set party.id vehicle
    backlog := (pass.backlog.dequeue party.id).2
    seated := pass.seated.push party
    events := pass.events.push { kind := .reallocated, party, vehicle }
    conflicts := pass.conflicts }

theorem seatAll_cons {vehicle : UInt64} {pass : Pass} {party : Party}
    (hreserved : (pass.fleet.tryReserve vehicle party.size).1 = true)
    (hleft : (pass.backlog.dequeue party.id).1 = true) (rest : List Party) :
    seatAll vehicle pass (party :: rest) = seatAll vehicle (pass.seat vehicle party) rest := by
  obtain ⟨fleet, seating, backlog, seated, events, conflicts⟩ := pass
  rw [seatAll]
  simp only [hreserved, hleft, if_true]
  rfl

/-- The parties wait, and the vehicle has room for all of them. -/
structure Ready (pass : Pass) (roster : Std.HashMap UInt64 UInt32) (slot : Slot)
    (parties : List Party) : Prop where
  /-- The books are consistent. -/
  consistent : (pass.books roster).Consistent
  /-- The vehicle is found. -/
  find?_eq : pass.fleet.find? slot.vehicle.id = some slot
  /-- It has room for all. -/
  headcount_le : headcount parties ≤ slot.available.toNat
  /-- The parties wait. -/
  mem_waiting : ∀ party ∈ parties, party ∈ pass.backlog.toList
  /-- None of them is chosen twice. -/
  nodup : parties.Nodup

namespace Ready

variable {pass : Pass} {roster : Std.HashMap UInt64 UInt32} {slot : Slot} {party : Party}
  {rest : List Party}

theorem size_le (h : pass.Ready roster slot (party :: rest)) : party.size ≤ slot.available := by
  have := h.headcount_le
  rw [headcount_cons] at this
  rw [UInt32.le_iff_toNat_le]
  omega

theorem tryReserve_eq (h : pass.Ready roster slot (party :: rest)) :
    pass.fleet.tryReserve slot.vehicle.id party.size =
      (true, pass.fleet.withAvailable slot.vehicle.id (slot.available - party.size)) := by
  have hle := h.size_le
  have hpos := (h.consistent.backlog.size_bounds (h.mem_waiting party (by simp))).1
  rw [Fleet.tryReserve_eq h.find?_eq, if_neg]
  rintro (hzero | hlt)
  · simp [hzero] at hpos
  · exact UInt32.not_lt.mpr hle hlt

theorem dequeue_eq (h : pass.Ready roster slot (party :: rest)) :
    (pass.backlog.dequeue party.id).1 = true := by
  rw [Backlog.fst_dequeue]
  exact h.consistent.backlog.contains_iff.mpr ⟨party, h.mem_waiting party (by simp), rfl⟩

theorem seatAll_cons (h : pass.Ready roster slot (party :: rest)) :
    seatAll slot.vehicle.id pass (party :: rest) =
      seatAll slot.vehicle.id (pass.seat slot.vehicle.id party) rest :=
  Pass.seatAll_cons (by rw [h.tryReserve_eq]) h.dequeue_eq rest

/-- Seating the first party is picking it up from the backlog. -/
theorem books_seat (h : pass.Ready roster slot (party :: rest)) :
    (pass.seat slot.vehicle.id party).books roster = (pass.books roster).pickUp party slot := by
  rw [books, seat, h.tryReserve_eq]
  rfl

theorem find?_seat (h : pass.Ready roster slot (party :: rest)) (id : UInt64) :
    (pass.seat slot.vehicle.id party).fleet.find? id =
      if slot.vehicle.id = id then some (slot.withAvailable (slot.available - party.size))
      else pass.fleet.find? id := by
  rw [seat, h.tryReserve_eq]
  exact h.consistent.fleet.find?_withAvailable h.find?_eq _ id

theorem find?_seat_of_ne (h : pass.Ready roster slot (party :: rest)) {id : UInt64}
    (hne : id ≠ slot.vehicle.id) :
    (pass.seat slot.vehicle.id party).fleet.find? id = pass.fleet.find? id :=
  (h.find?_seat id).trans (if_neg hne.symm)

/-- Those who wait are told apart by their ids, so only the party seated is missing. -/
theorem waiting_seat (h : pass.Ready roster slot (party :: rest)) :
    (pass.seat slot.vehicle.id party).backlog.toList =
      pass.backlog.toList.filter (· ≠ party) := by
  refine (h.consistent.backlog.toList_dequeue party.id).trans
    (List.filter_congr fun other hother ↦ ?_)
  have hid : other.id = party.id ↔ other = party :=
    ⟨h.consistent.backlog.eq_of_mem hother (h.mem_waiting party (by simp)), fun e ↦ e ▸ rfl⟩
  simp [hid]

/-- What is left of the parties can still be seated. -/
theorem seat (h : pass.Ready roster slot (party :: rest)) :
    (pass.seat slot.vehicle.id party).Ready roster
      (slot.withAvailable (slot.available - party.size)) rest where
  consistent := by
    rw [h.books_seat]
    exact h.consistent.pickUp h.find?_eq (h.mem_waiting party (by simp)) h.size_le
  find?_eq := (h.find?_seat _).trans (if_pos rfl)
  headcount_le := by
    have hle := h.headcount_le
    have hsub := UInt32.toNat_sub_of_le _ _ h.size_le
    rw [headcount_cons] at hle
    rw [Slot.available_withAvailable, hsub]
    omega
  mem_waiting other hother := by
    have hne : other ≠ party := by
      rintro rfl
      exact (List.nodup_cons.mp h.nodup).1 hother
    rw [h.waiting_seat, List.mem_filter]
    exact ⟨h.mem_waiting other (by simp [hother]), by simpa using hne⟩
  nodup := (List.nodup_cons.mp h.nodup).2

/-- A pass that is ready for some parties is ready for the first of them. -/
theorem of_append {parties others : List Party}
    (h : pass.Ready roster slot (parties ++ others)) : pass.Ready roster slot parties where
  consistent := h.consistent
  find?_eq := h.find?_eq
  headcount_le := by
    have := h.headcount_le
    rw [headcount_append] at this
    omega
  mem_waiting party hparty := h.mem_waiting party (List.mem_append_left others hparty)
  nodup := (List.nodup_append.mp h.nodup).1

end Ready

/-- Nobody is refused, so the pass seats one party after the other. -/
theorem Ready.seatAll_eq {pass : Pass} {roster : Std.HashMap UInt64 UInt32} {slot : Slot}
    {parties : List Party} (h : pass.Ready roster slot parties) :
    seatAll slot.vehicle.id pass parties = parties.foldl (Pass.seat slot.vehicle.id) pass := by
  induction parties generalizing pass slot with
  | nil => rw [seatAll, List.foldl_nil]
  | cons party rest ih =>
    have hrest := ih h.seat
    rw [Slot.vehicle_withAvailable] at hrest
    rw [h.seatAll_cons, List.foldl_cons, hrest]

/-! ## What a pass changes -/

/-- What has changed from one pass to another by seating the parties on the vehicle. -/
structure Served (pass pass' : Pass) (roster : Std.HashMap UInt64 UInt32) (slot : Slot)
    (parties : List Party) : Prop where
  /-- The books are consistent. -/
  consistent : (pass'.books roster).Consistent
  /-- The vehicle has fewer seats free by the people in the parties. -/
  exists_slot : ∃ available : UInt32, available.toNat + headcount parties = slot.available.toNat ∧
    pass'.fleet.find? slot.vehicle.id = some (slot.withAvailable available)
  /-- No other vehicle is touched. -/
  find?_eq : ∀ id, id ≠ slot.vehicle.id → pass'.fleet.find? id = pass.fleet.find? id
  /-- The parties do not wait any more, and everybody else keeps their place. -/
  waiting_eq : pass'.backlog.toList = pass.backlog.toList.filter (· ∉ parties)
  /-- The parties ride on the vehicle. -/
  get?_eq : ∀ id, pass'.seating.get? id =
    if id ∈ parties.map Party.id then some slot.vehicle.id else pass.seating.get? id
  /-- They are listed in the order in which they were seated. -/
  seated_eq : pass'.seated.toList = pass.seated.toList ++ parties
  /-- So are the events. -/
  events_eq : pass'.events.toList = pass.events.toList ++
    parties.map fun party ↦ { kind := .reallocated, party, vehicle := slot.vehicle.id }
  /-- Nobody was refused. -/
  conflicts_eq : pass'.conflicts = pass.conflicts

theorem Ready.served {pass : Pass} {roster : Std.HashMap UInt64 UInt32} {slot : Slot}
    {parties : List Party} (h : pass.Ready roster slot parties) :
    pass.Served (seatAll slot.vehicle.id pass parties) roster slot parties := by
  rw [h.seatAll_eq]
  induction parties generalizing pass slot with
  | nil =>
    refine ⟨h.consistent, ⟨slot.available, by simp, h.find?_eq⟩, fun _ _ ↦ rfl, ?_, ?_, ?_, ?_, rfl⟩
    · simp
    · simp
    · simp
    · simp
  | cons party rest ih =>
    have hrest := ih h.seat
    rw [Slot.vehicle_withAvailable] at hrest
    rw [List.foldl_cons]
    obtain ⟨available, havailable, hfind⟩ := hrest.exists_slot
    refine ⟨hrest.consistent, ⟨available, ?_, hfind⟩, fun id hid ↦ ?_, ?_, fun id ↦ ?_, ?_, ?_, ?_⟩
    · have hsub := UInt32.toNat_sub_of_le _ _ h.size_le
      have hle := UInt32.le_iff_toNat_le.mp h.size_le
      rw [Slot.available_withAvailable, hsub] at havailable
      rw [headcount_cons]
      omega
    · exact (hrest.find?_eq id hid).trans (h.find?_seat_of_ne hid)
    · refine hrest.waiting_eq.trans ?_
      rw [h.waiting_seat, List.filter_filter]
      refine List.filter_congr fun other _ ↦ ?_
      simp [Bool.and_comm]
    · refine (hrest.get?_eq id).trans ?_
      have hseat : (pass.seat slot.vehicle.id party).seating.get? id =
          if party.id = id then some slot.vehicle.id else pass.seating.get? id :=
        pass.seating.get?_set party.id slot.vehicle.id id
      rw [hseat]
      simp only [List.map_cons, List.mem_cons, Slot.vehicle_withAvailable, eq_comm (a := id)]
      by_cases hid : party.id = id <;> simp [hid]
    · refine hrest.seated_eq.trans ?_
      simp [Pass.seat]
    · refine hrest.events_eq.trans ?_
      simp [Pass.seat]
    · exact hrest.conflicts_eq

end Pass

end RideShare
