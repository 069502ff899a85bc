import RideShare.Proofs.Run

/-!
# Filling one vehicle is enough

When a party alights, only its vehicle is offered to those who wait, and the walk over them stops as
soon as nobody can fit. A careful dispatcher would search the whole fleet for everybody who waits.
This makes no difference, down to the order of the vehicles in their buckets: all other vehicles are
too small for all who wait, so a search finds the vehicle that was freed or none.

## Main statements

* `Dispatch.Orderly.sameRecords_rematch`: the two agree on books in order;
* `Engine.sameRecords_rematch_dropoff`: so they do at every point of every run.
-/

namespace RideShare

namespace Dispatch

/-! ## Matching everybody anew -/

/-- Offer the whole fleet to a waiting party. -/
def offer (books : Dispatch) (party : Party) : Dispatch :=
  match books.fleet.reserve party.size with
  | (none, fleet) => { books with fleet }
  | (some vehicle, fleet) =>
    { books with
      fleet
      backlog := (books.backlog.dequeue party.id).2
      seating := books.seating.set party.id vehicle }

/-- Forget a party that rides on a vehicle, and offer the whole fleet to all who wait, the oldest
first. -/
def rematch (books : Dispatch) (party : Party) (vehicle : UInt64) : Dispatch :=
  books.waiting.foldl offer (books.forget party vehicle)

variable {books books' : Dispatch} {party : Party} {slot : Slot}

theorem SameRecords.offer (h : books.SameRecords books') (party : Party) :
    (books.offer party).SameRecords (books'.offer party) := by
  rw [Dispatch.offer, Dispatch.offer, h.fleet, h.backlog, h.seating]
  split
  next => exact ⟨rfl, rfl, rfl, h.roster⟩
  next => exact ⟨rfl, rfl, rfl, h.roster⟩

theorem SameRecords.foldl_offer (h : books.SameRecords books') (parties : List Party) :
    (parties.foldl Dispatch.offer books).SameRecords (parties.foldl Dispatch.offer books') := by
  induction parties generalizing books books' with
  | nil => exact h
  | cons party rest ih => exact ih (h.offer party)

namespace Consistent

/-- If all vehicles are too small, the offer changes nothing. -/
theorem offer_of_full (h : books.Consistent) (hsize : isSeatCount party.size = true)
    (hfull : ∀ slot ∈ books.fleet.slots, slot.available < party.size) :
    books.offer party = books := by
  rcases h.fleet.reserve_cases hsize with ⟨hnone, -⟩ | ⟨slot, hslot, hfit, -⟩
  · rw [offer, hnone]
  · have hlt := hfull slot (h.fleet.mem_slots_iff.mpr hslot)
    exact absurd hlt (UInt32.not_lt.mpr hfit)

/-- If only one vehicle is large enough, the party boards it. -/
theorem offer_of_fits (h : books.Consistent) (hsize : isSeatCount party.size = true)
    (hslot : books.fleet.find? slot.vehicle.id = some slot) (hfit : party.size ≤ slot.available)
    (hothers : ∀ id slot', id ≠ slot.vehicle.id → books.fleet.find? id = some slot' →
      slot'.available < party.size) :
    books.offer party = books.pickUp party slot := by
  rcases h.fleet.reserve_cases hsize with ⟨-, hfull⟩ | ⟨slot', hslot', hfit', -, hsome⟩
  · have hlt := hfull slot (h.fleet.mem_slots_iff.mpr hslot)
    exact absurd hfit (UInt32.not_le.mpr hlt)
  · have hid : slot'.vehicle.id = slot.vehicle.id := by
      by_contra hid
      exact UInt32.not_lt.mpr hfit' (hothers _ slot' hid hslot')
    rw [hid] at hslot'
    obtain rfl := Option.some.inj (hslot'.symm.trans hslot)
    rw [offer, hsome]
    rfl

end Consistent

end Dispatch

/-! ## The pass and the search agree -/

/-- The seats of one vehicle are the only ones anybody can get, before and after each of them is
taken. So the walk that offers everything to everybody does what the pass over those chosen does. -/
theorem Pass.Ready.foldl_offer {pass : Pass} {roster : Std.HashMap UInt64 UInt32} {slot : Slot}
    {waiting : List Party} (h : pass.Ready roster slot (fill slot.available.toNat waiting))
    (hsizes : ∀ party ∈ waiting, isSeatCount party.size = true)
    (hothers : ∀ party ∈ waiting, ∀ id slot', id ≠ slot.vehicle.id →
      pass.fleet.find? id = some slot' → slot'.available < party.size) :
    waiting.foldl Dispatch.offer (pass.books roster) =
      (seatAll slot.vehicle.id pass (fill slot.available.toNat waiting)).books roster := by
  induction waiting generalizing pass slot with
  | nil => rfl
  | cons party rest ih =>
    have hsize := hsizes party (by simp)
    have hsizes' : ∀ other ∈ rest, isSeatCount other.size = true :=
      fun other hother ↦ hsizes other (by simp [hother])
    have hfind := h.find?_eq
    rw [List.foldl_cons]
    rcases Nat.lt_or_ge slot.available.toNat party.size.toNat with hlt | hle
    · rw [fill_cons_of_lt hlt] at h ⊢
      have hfull : ∀ slot' ∈ pass.fleet.slots, slot'.available < party.size := by
        intro slot' hslot'
        have hfound := h.consistent.fleet.mem_slots_iff.mp hslot'
        by_cases hid : slot'.vehicle.id = slot.vehicle.id
        · rw [hid] at hfound
          obtain rfl := Option.some.inj (hfound.symm.trans hfind)
          exact UInt32.lt_iff_toNat_lt.mpr hlt
        · exact hothers party (by simp) _ slot' hid hfound
      rw [h.consistent.offer_of_full hsize hfull]
      exact ih h hsizes' fun other hother ↦ hothers other (by simp [hother])
    · rw [fill_cons_of_le hle] at h ⊢
      have hsub : (slot.available - party.size).toNat =
          slot.available.toNat - party.size.toNat :=
        UInt32.toNat_sub_of_le _ _ h.size_le
      have hseat := h.seat
      rw [← hsub] at hseat
      rw [h.consistent.offer_of_fits hsize hfind h.size_le (hothers party (by simp)),
        ← h.books_seat, h.seatAll_cons, ← hsub]
      refine ih hseat hsizes' fun other hother id slot' hid hslot' ↦ ?_
      exact hothers other (by simp [hother]) id slot' hid
        ((h.find?_seat_of_ne hid).symm.trans hslot')

namespace Dispatch

variable {books : Dispatch}

/-- Ending a journey leaves the books that searching the whole fleet for everybody would. -/
theorem Orderly.sameRecords_rematch (h : books.Orderly) {id vehicle : UInt64} {size : UInt32}
    (hride : books.Rides id vehicle) (hsize : books.roster[id]? = some size) :
    (books.rematch { id, size } vehicle).SameRecords (books.dropoff id).books := by
  cases h.ended id with
  | unknown hnew heq => exact absurd ((h.knows_iff id).mpr (.inl ⟨vehicle, hride⟩)) hnew
  | left size' hparty heq => exact absurd ⟨_, hparty, rfl⟩ (h.not_waits hride)
  | alighted size' slot pass report hride' hslot hsize' hpass hreport heq =>
    obtain rfl := Option.some.inj (hride.symm.trans hride')
    obtain rfl := Option.some.inj (hsize.symm.trans hsize')
    have halight := @Consistent.alight books { id, size } slot h.toConsistent hride hslot hsize
    have hready := halight.ready (h.find?_alighted { id, size } hslot)
    have hwalk := hready.foldl_offer (fun party hparty ↦ h.backlog.isSeatCount_size party hparty)
      fun party hparty other slot' hid hslot' ↦ by
        have hsame := h.fleet.find?_withAvailable_of_ne hslot (slot.freed size) hid
        exact h.settled_iff.mp h.settled party hparty other slot' (hsame.symm.trans hslot')
    have hforget : (books.forget { id, size } slot.vehicle.id).SameRecords
        ((Pass.ofBooks (books.alight { id, size } slot)).books (books.roster.erase id)) := by
      rw [books.forget_eq hslot]
      exact ⟨rfl, rfl, rfl, rfl⟩
    rw [heq, hpass]
    refine (hforget.foldl_offer books.waiting).trans ?_
    have hwalk' : books.waiting.foldl offer
        ((Pass.ofBooks (books.alight { id, size } slot)).books (books.roster.erase id)) =
        ((books.alight { id, size } slot).refill (slot.withAvailable (slot.freed size))).books
          (books.roster.erase id) := hwalk
    rw [hwalk']
    exact ⟨rfl, rfl, rfl, rfl⟩

end Dispatch

/-- At every point of every run, ending the journey of a party of `size` people that rides on a
vehicle leaves the fleet, the seating, the roster and the backlog as if the whole fleet had been
searched for everybody who waits. -/
theorem Engine.sameRecords_rematch_dropoff (reserve : Nat) (operations : List Operation)
    {id vehicle : UInt64} {size : UInt32}
    (hride : ((ofReserve reserve).run operations).books.Rides id vehicle)
    (hsize : ((ofReserve reserve).run operations).books.roster[id]? = some size) :
    (((ofReserve reserve).run operations).books.rematch { id, size } vehicle).SameRecords
      (((ofReserve reserve).run operations).dropoff id).engine.books :=
  ((orderly_run reserve operations).sameRecords_rematch hride hsize).trans
    (sameRecords_apply _ (.dropoff id))

/-- One party alights from a vehicle of four, and the next one boards. -/
theorem Engine.sameRecords_rematch_dropoff_three :
    (((ofReserve 0).run [.reset [⟨1, 4⟩], .requestJourney ⟨5, 3⟩,
      .requestJourney ⟨7, 2⟩]).books.rematch { id := 5, size := 3 } 1).SameRecords
      (((ofReserve 0).run [.reset [⟨1, 4⟩], .requestJourney ⟨5, 3⟩,
        .requestJourney ⟨7, 2⟩]).dropoff 5).engine.books := by
  have hride : ((ofReserve 0).run [.reset [⟨1, 4⟩], .requestJourney ⟨5, 3⟩,
      .requestJourney ⟨7, 2⟩]).books.seating.get? 5 = some 1 := by cbv
  have hsize : ((ofReserve 0).run [.reset [⟨1, 4⟩], .requestJourney ⟨5, 3⟩,
      .requestJourney ⟨7, 2⟩]).books.roster[(5 : UInt64)]? = some 3 := by cbv
  exact sameRecords_rematch_dropoff 0 _ hride hsize

end RideShare
