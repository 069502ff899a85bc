import RideShare.Dispatch
import RideShare.Proofs.Backlog
import RideShare.Proofs.Fleet
import RideShare.Proofs.Seating

/-!
# Books that agree with themselves

The books hold the same facts in several places: a party is in the roster with its size, and rides
or waits; a vehicle's free seats are those nobody on it takes. `Dispatch.Consistent` says that the
places agree, on top of each of them being sound by itself.

What operations do to parties comes down to four changes: a party boards, joins the backlog, leaves
it, or alights. Each keeps the books consistent, and every operation is put together from them. In
between, while one operation moves several parties, the books are consistent as well.

## Main statements

* `Dispatch.Consistent.board`, `Dispatch.Consistent.hold`, `Dispatch.Consistent.leave` and
  `Dispatch.Consistent.alight`: the four changes;
* `Dispatch.Consistent.pickUp`: a waiting party boards, which is leaving and boarding at once.
-/

namespace RideShare.Dispatch

/-! ## What the books say -/

/-- The party rides on the vehicle. -/
def Rides (books : Dispatch) (id vehicle : UInt64) : Prop := books.seating.get? id = some vehicle

/-- The party waits. -/
def Waits (books : Dispatch) (id : UInt64) : Prop := ∃ party ∈ books.waiting, party.id = id

/-- The party is in the books. -/
def Knows (books : Dispatch) (id : UInt64) : Prop := id ∈ books.roster

/-- The number of people in a party, by the roster. -/
def sizeOf (books : Dispatch) (id : UInt64) : Nat := (books.roster.getD id 0).toNat

/-- The people in the parties that ride on a vehicle. -/
def peopleOn (books : Dispatch) (vehicle : UInt64) : Nat :=
  books.seating.peopleOn books.sizeOf vehicle

/-- The places of the books agree. -/
structure Consistent (books : Dispatch) : Prop where
  /-- The fleet is sound. -/
  fleet : books.fleet.Sound
  /-- The backlog is sound. -/
  backlog : books.backlog.Sound
  /-- Parties ride on vehicles of the fleet. -/
  exists_slot : ∀ {id vehicle}, books.Rides id vehicle →
    ∃ slot, books.fleet.find? vehicle = some slot
  /-- The seats of a vehicle are free or taken by the people on it. -/
  seats : ∀ {vehicle slot}, books.fleet.find? vehicle = some slot →
    slot.available.toNat + books.peopleOn vehicle = slot.vehicle.capacity.toNat
  /-- Nobody rides and waits. -/
  not_waits : ∀ {id vehicle}, books.Rides id vehicle → ¬ books.Waits id
  /-- The parties in the books are those that ride and those that wait. -/
  knows_iff : ∀ id, books.Knows id ↔ (∃ vehicle, books.Rides id vehicle) ∨ books.Waits id
  /-- A party waits with the size it is known by. -/
  roster_of_waiting : ∀ party ∈ books.waiting, books.roster[party.id]? = some party.size
  /-- A party is known by a size that parties have. -/
  isSeatCount_roster : ∀ {id : UInt64} {size : UInt32},
    books.roster[id]? = some size → isSeatCount size

/-- The same parties in the same places, and the same fleet. The counters may differ. -/
structure SameRecords (books books' : Dispatch) : Prop where
  /-- The fleet is the same. -/
  fleet : books.fleet = books'.fleet
  /-- The backlog is the same. -/
  backlog : books.backlog = books'.backlog
  /-- The seating is the same. -/
  seating : books.seating = books'.seating
  /-- The roster is the same. -/
  roster : books.roster = books'.roster

namespace SameRecords

theorem refl (books : Dispatch) : books.SameRecords books := ⟨rfl, rfl, rfl, rfl⟩

theorem trans {books books' books'' : Dispatch} (h : books.SameRecords books')
    (h' : books'.SameRecords books'') : books.SameRecords books'' :=
  ⟨h.fleet.trans h'.fleet, h.backlog.trans h'.backlog, h.seating.trans h'.seating,
    h.roster.trans h'.roster⟩

theorem symm {books books' : Dispatch} (h : books.SameRecords books') :
    books'.SameRecords books :=
  ⟨h.fleet.symm, h.backlog.symm, h.seating.symm, h.roster.symm⟩

end SameRecords

namespace Consistent

variable {books books' : Dispatch}

/-- Of the roster, only what it says matters, and of the counters nothing. -/
theorem congr_roster (h : books.Consistent) (hfleet : books.fleet = books'.fleet)
    (hbacklog : books.backlog = books'.backlog) (hseating : books.seating = books'.seating)
    (hroster : ∀ id : UInt64, books.roster[id]? = books'.roster[id]?) : books'.Consistent := by
  have hsize : books'.sizeOf = books.sizeOf := by
    funext id
    rw [sizeOf, sizeOf, Std.HashMap.getD_eq_getD_getElem?, Std.HashMap.getD_eq_getD_getElem?,
      hroster]
  have hrides (id vehicle) : books'.Rides id vehicle ↔ books.Rides id vehicle := by
    rw [Rides, Rides, hseating]
  have hwaits (id) : books'.Waits id ↔ books.Waits id := by
    rw [Waits, Waits, waiting, waiting, hbacklog]
  have hknows (id) : books'.Knows id ↔ books.Knows id := by
    rw [Knows, Knows, Std.HashMap.mem_iff_isSome_getElem?, Std.HashMap.mem_iff_isSome_getElem?,
      hroster]
  refine ⟨hfleet ▸ h.fleet, hbacklog ▸ h.backlog, ?_, ?_, ?_, ?_, ?_, ?_⟩
  · intro id vehicle hride
    rw [← hfleet]
    exact h.exists_slot ((hrides id vehicle).mp hride)
  · intro vehicle slot hslot
    rw [← hfleet] at hslot
    rw [peopleOn, ← hseating, hsize]
    exact h.seats hslot
  · intro id vehicle hride hwait
    exact h.not_waits ((hrides id vehicle).mp hride) ((hwaits id).mp hwait)
  · intro id
    rw [hknows, h.knows_iff, hwaits]
    simp only [hrides]
  · intro party hparty
    rw [← hroster]
    exact h.roster_of_waiting party (by rwa [waiting, hbacklog])
  · intro id size hsize
    exact h.isSeatCount_roster ((hroster id).trans hsize)

theorem congr (h : books.Consistent) (same : books.SameRecords books') : books'.Consistent :=
  h.congr_roster same.fleet same.backlog same.seating fun id ↦ by rw [same.roster]

theorem waits_iff (h : books.Consistent) {id : UInt64} :
    books.Waits id ↔ books.backlog.contains id = true :=
  h.backlog.contains_iff.symm

theorem sizeOf_eq {id : UInt64} {size : UInt32} (hsize : books.roster[id]? = some size) :
    books.sizeOf id = size.toNat := by
  rw [sizeOf, Std.HashMap.getD_eq_getD_getElem?, hsize, Option.getD_some]

end Consistent

/-! ## Four changes -/

/-- A party boards a vehicle that has room for it. -/
def board (books : Dispatch) (party : Party) (slot : Slot) : Dispatch :=
  { books with
    fleet := books.fleet.withAvailable slot.vehicle.id (slot.available - party.size)
    seating := books.seating.set party.id slot.vehicle.id
    roster := books.roster.insert party.id party.size }

/-- A party joins the backlog. -/
def hold (books : Dispatch) (party : Party) : Dispatch :=
  { books with
    backlog := (books.backlog.enqueue party).2
    roster := books.roster.insert party.id party.size }

/-- A party leaves the backlog. -/
def leave (books : Dispatch) (id : UInt64) : Dispatch :=
  { books with
    backlog := (books.backlog.dequeue id).2
    roster := books.roster.erase id }

/-- A party alights from a vehicle, which gets its seats back. -/
def alight (books : Dispatch) (party : Party) (slot : Slot) : Dispatch :=
  { books with
    fleet := books.fleet.withAvailable slot.vehicle.id (slot.freed party.size)
    seating := books.seating.erase party.id
    roster := books.roster.erase party.id }

section Changes

variable (books : Dispatch) (party : Party) (slot : Slot) (id other vehicle : UInt64)

@[simp] theorem rides_board : (books.board party slot).Rides id vehicle ↔
    if party.id = id then slot.vehicle.id = vehicle else books.Rides id vehicle := by
  rw [Rides, board, Seating.get?_set]
  split <;> simp [Rides]

@[simp] theorem getElem?_roster_board : (books.board party slot).roster[id]? =
    if party.id = id then some party.size else books.roster[id]? := by
  rw [board, Std.HashMap.getElem?_insert]
  simp

@[simp] theorem knows_board :
    (books.board party slot).Knows id ↔ party.id = id ∨ books.Knows id := by
  simp [Knows, board]

@[simp] theorem getElem?_roster_hold : (books.hold party).roster[id]? =
    if party.id = id then some party.size else books.roster[id]? := by
  rw [hold, Std.HashMap.getElem?_insert]
  simp

@[simp] theorem knows_hold : (books.hold party).Knows id ↔ party.id = id ∨ books.Knows id := by
  simp [Knows, hold]

@[simp] theorem getElem?_roster_leave : (books.leave id).roster[other]? =
    if id = other then none else books.roster[other]? := by
  rw [leave, Std.HashMap.getElem?_erase]
  simp

@[simp] theorem knows_leave : (books.leave id).Knows other ↔ id ≠ other ∧ books.Knows other := by
  simp [Knows, leave]

@[simp] theorem rides_alight : (books.alight party slot).Rides id vehicle ↔
    party.id ≠ id ∧ books.Rides id vehicle := by
  rw [Rides, alight, Seating.get?_erase]
  split <;> simp_all [Rides]

@[simp] theorem getElem?_roster_alight : (books.alight party slot).roster[id]? =
    if party.id = id then none else books.roster[id]? := by
  rw [alight, Std.HashMap.getElem?_erase]
  simp

@[simp] theorem knows_alight :
    (books.alight party slot).Knows id ↔ party.id ≠ id ∧ books.Knows id := by
  simp [Knows, alight]

end Changes

namespace Consistent

variable {books : Dispatch} {party : Party} {slot : Slot} {id : UInt64} {size : UInt32}

/-! ## Parties that are somewhere else -/

theorem get?_of_not_knows (h : books.Consistent) (hnew : ¬ books.Knows id) :
    books.seating.get? id = none :=
  Option.eq_none_iff_forall_ne_some.mpr fun vehicle hride ↦
    hnew ((h.knows_iff id).mpr (.inl ⟨vehicle, hride⟩))

theorem get?_of_waits (h : books.Consistent) (hwait : books.Waits id) :
    books.seating.get? id = none :=
  Option.eq_none_iff_forall_ne_some.mpr fun _ hride ↦ h.not_waits hride hwait

theorem not_waits_of_not_knows (h : books.Consistent) (hnew : ¬ books.Knows id) :
    ¬ books.Waits id :=
  fun hwait ↦ hnew ((h.knows_iff id).mpr (.inr hwait))

/-- The people on a vehicle are counted by the sizes of riders, so the size of a party that does not
ride can change. -/
private theorem peopleOn_roster (roster : Std.HashMap UInt64 UInt32) {seating : Seating}
    (hout : seating.get? id = none)
    (hsame : ∀ other, id ≠ other → roster[other]? = books.roster[other]?) (vehicle : UInt64) :
    seating.peopleOn (fun id ↦ (roster.getD id 0).toNat) vehicle =
      seating.peopleOn books.sizeOf vehicle := by
  refine Seating.peopleOn_congr (fun other hride ↦ ?_) vehicle
  have hne : id ≠ other := by
    rintro rfl
    simp [hout] at hride
  rw [sizeOf, Std.HashMap.getD_eq_getD_getElem?, Std.HashMap.getD_eq_getD_getElem?,
    hsame other hne]

/-- The sizes in a roster that a party has joined. -/
private theorem isSeatCount_joined (h : books.Consistent) (hsize : isSeatCount party.size = true)
    (hroster : (if party.id = id then some party.size else books.roster[id]?) = some size) :
    isSeatCount size = true := by
  split at hroster
  next => exact Option.some.inj hroster ▸ hsize
  next => exact h.isSeatCount_roster hroster

/-- The sizes in a roster that a party has left. -/
private theorem isSeatCount_left (h : books.Consistent) {other : UInt64}
    (hroster : (if other = id then none else books.roster[id]?) = some size) :
    isSeatCount size = true := by
  split at hroster
  next => exact absurd hroster (by simp)
  next => exact h.isSeatCount_roster hroster

/-! ## Boarding -/

theorem find?_board (h : books.Consistent) (party : Party)
    (hslot : books.fleet.find? slot.vehicle.id = some slot) (id : UInt64) :
    (books.board party slot).fleet.find? id =
      if slot.vehicle.id = id then some (slot.withAvailable (slot.available - party.size))
      else books.fleet.find? id :=
  h.fleet.find?_withAvailable hslot _ id

theorem peopleOn_board (h : books.Consistent) (slot : Slot) (hnew : ¬ books.Knows party.id)
    (vehicle : UInt64) :
    (books.board party slot).peopleOn vehicle =
      books.peopleOn vehicle + if slot.vehicle.id = vehicle then party.size.toNat else 0 := by
  have hroster := books.getElem?_roster_board party slot
  have hsizeOf : (books.board party slot).sizeOf party.id = party.size.toNat :=
    sizeOf_eq ((hroster party.id).trans (if_pos rfl))
  have hout := h.get?_of_not_knows hnew
  have hsame := peopleOn_roster (books.board party slot).roster hout
    (fun id hne ↦ (hroster id).trans (if_neg hne)) vehicle
  refine (Seating.peopleOn_set _ hout vehicle).trans ?_
  rw [hsizeOf]
  exact congrArg (· + _) hsame

theorem board (h : books.Consistent) (hslot : books.fleet.find? slot.vehicle.id = some slot)
    (hnew : ¬ books.Knows party.id) (hsize : isSeatCount party.size = true)
    (hfit : party.size ≤ slot.available) : (books.board party slot).Consistent where
  fleet := by
    have hle := (h.fleet.proper_of_find? hslot).toNat_le
    refine h.fleet.withAvailable hslot ?_
    rw [UInt32.le_iff_toNat_le, UInt32.toNat_sub_of_le _ _ hfit]
    omega
  backlog := h.backlog
  exists_slot := by
    intro id vehicle hride
    rw [h.find?_board party hslot]
    rw [rides_board] at hride
    split
    next => exact ⟨_, rfl⟩
    next hvehicle =>
      split at hride
      next => exact absurd hride hvehicle
      next => exact h.exists_slot hride
  seats := by
    intro vehicle slot' hslot'
    rw [h.find?_board party hslot] at hslot'
    rw [h.peopleOn_board slot hnew]
    split at hslot'
    next hvehicle =>
      obtain rfl := Option.some.inj hslot'
      have hseats := h.seats hslot
      have hsub := UInt32.toNat_sub_of_le _ _ hfit
      rw [UInt32.le_iff_toNat_le] at hfit
      rw [if_pos hvehicle, ← hvehicle, Slot.available_withAvailable, hsub,
        Slot.vehicle_withAvailable]
      omega
    next hvehicle =>
      rw [if_neg hvehicle]
      exact h.seats hslot'
  not_waits := by
    intro id vehicle hride hwait
    rw [rides_board] at hride
    split at hride
    next hid => exact h.not_waits_of_not_knows hnew (hid ▸ hwait)
    next => exact h.not_waits hride hwait
  knows_iff := by
    intro id
    have hwaits : (books.board party slot).Waits id ↔ books.Waits id := .rfl
    rw [knows_board, hwaits, h.knows_iff]
    simp only [rides_board]
    by_cases hid : party.id = id <;> simp [hid]
  roster_of_waiting := by
    intro other hother
    have hne : party.id ≠ other.id := fun hid ↦
      h.not_waits_of_not_knows hnew ⟨other, hother, hid.symm⟩
    rw [getElem?_roster_board, if_neg hne]
    exact h.roster_of_waiting other hother
  isSeatCount_roster := by
    intro id size hroster
    rw [getElem?_roster_board] at hroster
    exact h.isSeatCount_joined hsize hroster

/-! ## Joining the backlog -/

/-- A party that is not in the books is not refused. -/
theorem fst_enqueue (h : books.Consistent) (hnew : ¬ books.Knows party.id)
    (hsize : isSeatCount party.size = true) : (books.backlog.enqueue party).1 = true := by
  have hout : books.backlog.contains party.id = false := by
    rw [← Bool.not_eq_true, ← h.waits_iff]
    exact h.not_waits_of_not_knows hnew
  rw [Backlog.fst_enqueue, hsize, hout]
  rfl

theorem waiting_hold (h : books.Consistent) (hnew : ¬ books.Knows party.id)
    (hsize : isSeatCount party.size = true) :
    (books.hold party).waiting = books.waiting ++ [party] :=
  h.backlog.toList_enqueue (h.fst_enqueue hnew hsize)

theorem waits_hold (h : books.Consistent) (hnew : ¬ books.Knows party.id)
    (hsize : isSeatCount party.size = true) (id : UInt64) :
    (books.hold party).Waits id ↔ books.Waits id ∨ party.id = id := by
  simp only [Waits, h.waiting_hold hnew hsize, List.mem_append, List.mem_singleton, or_and_right,
    exists_or, exists_eq_left]

theorem hold (h : books.Consistent) (hnew : ¬ books.Knows party.id)
    (hsize : isSeatCount party.size = true) : (books.hold party).Consistent where
  fleet := h.fleet
  backlog := h.backlog.enqueue party
  exists_slot := h.exists_slot
  seats := by
    intro vehicle slot hslot
    have hsame := peopleOn_roster (books.hold party).roster (h.get?_of_not_knows hnew)
      (fun id hne ↦ (books.getElem?_roster_hold party id).trans (if_neg hne)) vehicle
    exact (congrArg (slot.available.toNat + ·) hsame).trans (h.seats hslot)
  not_waits := by
    intro id vehicle hride hwait
    rcases (h.waits_hold hnew hsize id).mp hwait with hwait | rfl
    · exact h.not_waits hride hwait
    · exact hnew ((h.knows_iff _).mpr (.inl ⟨vehicle, hride⟩))
  knows_iff := by
    intro id
    rw [knows_hold, h.waits_hold hnew hsize, h.knows_iff, or_comm, or_assoc]
    rfl
  roster_of_waiting := by
    intro other hother
    rw [h.waiting_hold hnew hsize, List.mem_append, List.mem_singleton] at hother
    rw [getElem?_roster_hold]
    rcases hother with hother | rfl
    · have hne : party.id ≠ other.id := fun hid ↦
        h.not_waits_of_not_knows hnew ⟨other, hother, hid.symm⟩
      rw [if_neg hne]
      exact h.roster_of_waiting other hother
    · rw [if_pos rfl]
  isSeatCount_roster := by
    intro id size hroster
    rw [getElem?_roster_hold] at hroster
    exact h.isSeatCount_joined hsize hroster

/-! ## Leaving the backlog -/

theorem waiting_leave (h : books.Consistent) (id : UInt64) :
    (books.leave id).waiting = books.waiting.filter (·.id ≠ id) :=
  h.backlog.toList_dequeue id

theorem waits_leave (h : books.Consistent) (id other : UInt64) :
    (books.leave id).Waits other ↔ books.Waits other ∧ other ≠ id := by
  simp only [Waits, h.waiting_leave, List.mem_filter, decide_eq_true_eq]
  constructor
  · rintro ⟨party, ⟨hparty, hne⟩, rfl⟩
    exact ⟨⟨party, hparty, rfl⟩, hne⟩
  · rintro ⟨⟨party, hparty, rfl⟩, hne⟩
    exact ⟨party, ⟨hparty, hne⟩, rfl⟩

theorem leave (h : books.Consistent) (hwait : books.Waits id) : (books.leave id).Consistent where
  fleet := h.fleet
  backlog := h.backlog.dequeue id
  exists_slot := h.exists_slot
  seats := by
    intro vehicle slot hslot
    have hsame := peopleOn_roster (books.leave id).roster (h.get?_of_waits hwait)
      (fun other hne ↦ (books.getElem?_roster_leave id other).trans (if_neg hne)) vehicle
    exact (congrArg (slot.available.toNat + ·) hsame).trans (h.seats hslot)
  not_waits := by
    intro other vehicle hride hwait'
    exact h.not_waits hride ((h.waits_leave id other).mp hwait').1
  knows_iff := by
    intro other
    have hrides (vehicle) : (books.leave id).Rides other vehicle ↔ books.Rides other vehicle := .rfl
    rw [knows_leave, h.waits_leave, h.knows_iff]
    simp only [hrides]
    constructor
    · rintro ⟨hne, hride | hwait'⟩
      · exact .inl hride
      · exact .inr ⟨hwait', hne.symm⟩
    · rintro (⟨vehicle, hride⟩ | ⟨hwait', hne⟩)
      · exact ⟨fun hid ↦ h.not_waits hride (hid ▸ hwait), .inl ⟨vehicle, hride⟩⟩
      · exact ⟨hne.symm, .inr hwait'⟩
  roster_of_waiting := by
    intro party hparty
    rw [h.waiting_leave, List.mem_filter, decide_eq_true_eq] at hparty
    rw [getElem?_roster_leave, if_neg (Ne.symm hparty.2)]
    exact h.roster_of_waiting party hparty.1
  isSeatCount_roster := by
    intro other size hroster
    rw [getElem?_roster_leave] at hroster
    exact h.isSeatCount_left hroster

/-! ## Alighting -/

/-- The seats a party takes are missing on its vehicle, so all of them come back. -/
theorem toNat_freed (h : books.Consistent) (hride : books.Rides party.id slot.vehicle.id)
    (hslot : books.fleet.find? slot.vehicle.id = some slot)
    (hsize : books.roster[party.id]? = some party.size) :
    (slot.freed party.size).toNat = slot.available.toNat + party.size.toNat := by
  have hpeople := Seating.peopleOn_erase books.sizeOf hride slot.vehicle.id
  rw [if_pos rfl, sizeOf_eq hsize] at hpeople
  have hseats := h.seats hslot
  rw [peopleOn, hpeople] at hseats
  rw [(h.fleet.proper_of_find? hslot).toNat_freed]
  omega

theorem find?_alight (h : books.Consistent) (party : Party)
    (hslot : books.fleet.find? slot.vehicle.id = some slot) (id : UInt64) :
    (books.alight party slot).fleet.find? id =
      if slot.vehicle.id = id then some (slot.withAvailable (slot.freed party.size))
      else books.fleet.find? id :=
  h.fleet.find?_withAvailable hslot _ id

theorem peopleOn_alight (hride : books.Rides party.id slot.vehicle.id)
    (hsize : books.roster[party.id]? = some party.size) (vehicle : UInt64) :
    books.peopleOn vehicle = (books.alight party slot).peopleOn vehicle +
      if slot.vehicle.id = vehicle then party.size.toNat else 0 := by
  have hout : (books.seating.erase party.id).get? party.id = none := by simp
  have hsame := peopleOn_roster (books.alight party slot).roster hout
    (fun id hne ↦ (books.getElem?_roster_alight party slot id).trans (if_neg hne)) vehicle
  refine (Seating.peopleOn_erase _ hride vehicle).trans ?_
  rw [sizeOf_eq hsize]
  exact congrArg (· + _) hsame.symm

theorem alight (h : books.Consistent) (hride : books.Rides party.id slot.vehicle.id)
    (hslot : books.fleet.find? slot.vehicle.id = some slot)
    (hsize : books.roster[party.id]? = some party.size) :
    (books.alight party slot).Consistent where
  fleet := h.fleet.withAvailable hslot ((h.fleet.proper_of_find? hslot).freed_le _)
  backlog := h.backlog
  exists_slot := by
    intro id vehicle hride'
    rw [h.find?_alight party hslot]
    rw [rides_alight] at hride'
    split
    next => exact ⟨_, rfl⟩
    next => exact h.exists_slot hride'.2
  seats := by
    intro vehicle slot' hslot'
    have hpeople := peopleOn_alight hride hsize vehicle
    rw [h.find?_alight party hslot] at hslot'
    split at hslot'
    next hvehicle =>
      obtain rfl := Option.some.inj hslot'
      have hseats := h.seats hslot
      have hfreed := h.toNat_freed hride hslot hsize
      rw [if_pos hvehicle, ← hvehicle] at hpeople
      rw [← hvehicle, Slot.available_withAvailable, hfreed, Slot.vehicle_withAvailable]
      omega
    next hvehicle =>
      rw [if_neg hvehicle, Nat.add_zero] at hpeople
      rw [← hpeople]
      exact h.seats hslot'
  not_waits := by
    intro id vehicle hride' hwait
    rw [rides_alight] at hride'
    exact h.not_waits hride'.2 hwait
  knows_iff := by
    intro id
    have hwaits : (books.alight party slot).Waits id ↔ books.Waits id := .rfl
    rw [knows_alight, hwaits, h.knows_iff]
    simp only [rides_alight]
    constructor
    · rintro ⟨hne, ⟨vehicle, hride'⟩ | hwait⟩
      · exact .inl ⟨vehicle, hne, hride'⟩
      · exact .inr hwait
    · rintro (⟨vehicle, hne, hride'⟩ | hwait)
      · exact ⟨hne, .inl ⟨vehicle, hride'⟩⟩
      · exact ⟨fun hid ↦ h.not_waits hride (hid ▸ hwait), .inr hwait⟩
  roster_of_waiting := by
    intro other hother
    have hne : party.id ≠ other.id := fun hid ↦ h.not_waits hride ⟨other, hother, hid.symm⟩
    rw [getElem?_roster_alight, if_neg hne]
    exact h.roster_of_waiting other hother
  isSeatCount_roster := by
    intro id size hroster
    rw [getElem?_roster_alight] at hroster
    exact h.isSeatCount_left hroster

end Consistent

/-! ## Boarding out of the backlog -/

/-- A party boards out of the backlog. It is in the roster already. -/
def pickUp (books : Dispatch) (party : Party) (slot : Slot) : Dispatch :=
  { books with
    fleet := books.fleet.withAvailable slot.vehicle.id (slot.available - party.size)
    backlog := (books.backlog.dequeue party.id).2
    seating := books.seating.set party.id slot.vehicle.id }

namespace Consistent

variable {books : Dispatch} {party : Party} {slot : Slot}

/-- The party could as well have left and come back when there was room. -/
theorem pickUp (h : books.Consistent) (hslot : books.fleet.find? slot.vehicle.id = some slot)
    (hparty : party ∈ books.waiting) (hfit : party.size ≤ slot.available) :
    (books.pickUp party slot).Consistent := by
  have hleft := h.leave ⟨party, hparty, rfl⟩
  have hgone : ¬ (books.leave party.id).Knows party.id := by
    simp [Knows, Dispatch.leave]
  have hboarded := hleft.board hslot hgone
    (h.backlog.isSeatCount_size party hparty) hfit
  refine hboarded.congr_roster rfl rfl rfl fun id ↦ ?_
  simp only [Dispatch.board, Dispatch.leave, Dispatch.pickUp, Std.HashMap.getElem?_insert,
    Std.HashMap.getElem?_erase]
  by_cases hid : party.id = id
  · simp [← hid, h.roster_of_waiting party hparty]
  · simp [hid]

end Consistent

/-! ## Empty books -/

/-- Books in which nobody rides or waits are consistent, if all seats are free. -/
theorem consistent_empty {fleet : Fleet} {backlog : Backlog} {counters : Counters}
    (hfleet : fleet.Sound) (hfree : fleet.AllFree) (hbacklog : backlog.Sound)
    (hnobody : backlog.toList = []) : Consistent { fleet, backlog, counters } := by
  have hrides {id vehicle} : ¬ Rides { fleet, backlog, counters } id vehicle := by
    simp [Rides]
  refine ⟨hfleet, hbacklog, fun hride ↦ absurd hride hrides, ?_, fun hride ↦ absurd hride hrides,
    fun id ↦ ?_, ?_, ?_⟩
  · intro vehicle slot hslot
    have hall := hfree slot (hfleet.find?_eq_some_iff.mp hslot).1
    have hpeople : peopleOn { fleet, backlog, counters } vehicle = 0 :=
      Seating.peopleOn_empty _ vehicle
    rw [hpeople, hall, Nat.add_zero]
  · simp [hrides, Waits, waiting, hnobody, Knows]
  · simp [waiting, hnobody]
  · simp

theorem consistent_ofReserve (reserve : Nat) : (ofReserve reserve).Consistent :=
  consistent_empty Fleet.sound_empty (fun slot hslot ↦ by simp at hslot)
    (Backlog.sound_ofReserve reserve) (Backlog.toList_ofReserve reserve)

end RideShare.Dispatch
