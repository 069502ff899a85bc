import RideShare.Proofs.Replies

/-!
# Books kept from the records

Whoever keeps all records can do without asking. A *ledger* is what he then knows: who rides where
and with how many people, and who waits in which order. `Ledger.enter?` brings it up to date with
one record, and it is suspicious: a record about a party that is not in the condition it speaks of,
with that size and on that vehicle, cannot be entered. So a stream of records that can be entered
from beginning to end leaves nothing out, says nothing twice, and is in order.

The records of every operation are such a stream. They are made by the four changes that operations
are put together from, so there is one lemma for each change, and one induction along the parties
that a pass seats.

## Main statements

* `Ledger.Describes.perform`: the records of an operation can be entered, and lead from the books
  before to the books after it;
* `Ledger.Describes.agrees`: what a ledger then says about parties, sizes and the queue.
-/

namespace RideShare

open Journal

/-! ## The ledger -/

/-- What is known about a riding party. -/
structure Ride where
  /-- The number of people in it. -/
  size : UInt32
  /-- The vehicle it is on. -/
  vehicle : UInt64
  deriving DecidableEq

/-- What can be known from the records. -/
structure Ledger where
  /-- Who rides. -/
  riding : Std.HashMap UInt64 Ride := ∅
  /-- Who waits, the oldest first. -/
  waiting : List Party := []

namespace Ledger

/-- Whether a party rides or waits. -/
def knows (ledger : Ledger) (id : UInt64) : Bool :=
  ledger.riding.contains id || ledger.waiting.any fun party ↦ party.id == id

/-- Enter what happened to a party. -/
def enterEvent? (ledger : Ledger) (event : Event) : Option Ledger :=
  let { kind, party, vehicle, .. } := event
  match kind with
  | .assigned =>
    if ledger.knows party.id then none
    else some { ledger with riding := ledger.riding.insert party.id ⟨party.size, vehicle⟩ }
  | .queued =>
    if ledger.knows party.id then none
    else some { ledger with waiting := ledger.waiting ++ [party] }
  | .reallocated =>
    if party ∈ ledger.waiting then
      some
        { riding := ledger.riding.insert party.id ⟨party.size, vehicle⟩
          waiting := ledger.waiting.erase party }
    else none
  | .droppedOff =>
    if ledger.riding[party.id]? = some ⟨party.size, vehicle⟩ then
      some { ledger with riding := ledger.riding.erase party.id }
    else none
  | .leftQueue =>
    if party ∈ ledger.waiting then some { ledger with waiting := ledger.waiting.erase party }
    else none
  | .duplicateRejected => if ledger.knows party.id then some ledger else none
  | .notFound => if ledger.knows party.id then none else some ledger
  | .reserveConflict | .other _ => none

/-- Enter a record. A reset clears the ledger, and a report says nothing new. -/
def enter? (ledger : Ledger) : Record → Option Ledger
  | .reset _ => some {}
  | .event event => ledger.enterEvent? event
  | .report _ => some ledger

/-- Enter records in turn. -/
def replay? (ledger : Ledger) (records : List Record) : Option Ledger :=
  records.foldlM enter? ledger

theorem replay?_append (ledger : Ledger) (records others : List Record) :
    ledger.replay? (records ++ others) =
      (ledger.replay? records).bind fun ledger ↦ ledger.replay? others :=
  List.foldlM_append

/-- The size of a party that rides or waits. -/
def sizeOf? (ledger : Ledger) (id : UInt64) : Option UInt32 :=
  match ledger.riding[id]? with
  | some ride => some ride.size
  | none => (ledger.waiting.find? fun party ↦ party.id = id).map Party.size

/-- The ledger says what the books say: who rides where, how many people are in every party, and who
waits in which order. -/
structure Agrees (ledger : Ledger) (books : Dispatch) : Prop where
  /-- The same parties ride, on the same vehicles. -/
  vehicle_eq : ∀ id : UInt64, (ledger.riding[id]?).map Ride.vehicle = books.seating.get? id
  /-- The same parties are known, and have the same sizes. -/
  sizeOf?_eq : ∀ id, ledger.sizeOf? id = books.roster[id]?
  /-- The same parties wait, in the same order. -/
  waiting_eq : ledger.waiting = books.waiting

end Ledger

/-! ## Rides in the books -/

namespace Dispatch

/-- What the books say about a riding party. -/
def ride? (books : Dispatch) (id : UInt64) : Option Ride :=
  (books.seating.get? id).bind fun vehicle ↦ (books.roster[id]?).map fun size ↦ ⟨size, vehicle⟩

theorem ride?_of_rides {books : Dispatch} {id vehicle : UInt64} {size : UInt32}
    (hride : books.Rides id vehicle) (hsize : books.roster[id]? = some size) :
    books.ride? id = some ⟨size, vehicle⟩ := by
  rw [ride?, show books.seating.get? id = some vehicle from hride, hsize]
  rfl

theorem ride?_of_not_rides (books : Dispatch) {id : UInt64} (hout : books.seating.get? id = none) :
    books.ride? id = none := by
  rw [ride?, hout, Option.bind_none]

/-- What the books say about a party depends on what they say in two places. -/
theorem ride?_congr {books books' : Dispatch} {id : UInt64}
    (hseating : books'.seating.get? id = books.seating.get? id)
    (hroster : books'.roster[id]? = books.roster[id]?) : books'.ride? id = books.ride? id := by
  rw [ride?, ride?, hseating, hroster]

section Changes

variable {books : Dispatch} {party : Party} {slot : Slot}

@[simp] theorem ride?_board (id : UInt64) : (books.board party slot).ride? id =
    if party.id = id then some ⟨party.size, slot.vehicle.id⟩ else books.ride? id := by
  have hseating := books.seating.get?_set party.id slot.vehicle.id id
  have hroster := books.getElem?_roster_board party slot id
  split
  next hid => exact ride?_of_rides (hseating.trans (if_pos hid)) (hroster.trans (if_pos hid))
  next hid => exact ride?_congr (hseating.trans (if_neg hid)) (hroster.trans (if_neg hid))

@[simp] theorem ride?_pickUp (hsize : books.roster[party.id]? = some party.size) (id : UInt64) :
    (books.pickUp party slot).ride? id =
      if party.id = id then some ⟨party.size, slot.vehicle.id⟩ else books.ride? id := by
  have hseating := books.seating.get?_set party.id slot.vehicle.id id
  split
  next hid => exact ride?_of_rides (hseating.trans (if_pos hid)) (hid ▸ hsize)
  next hid => exact ride?_congr (hseating.trans (if_neg hid)) rfl

@[simp] theorem ride?_alight (id : UInt64) : (books.alight party slot).ride? id =
    if party.id = id then none else books.ride? id := by
  have hseating := books.seating.get?_erase party.id id
  have hroster := books.getElem?_roster_alight party slot id
  split
  next hid => exact ride?_of_not_rides _ (hseating.trans (if_pos hid))
  next hid => exact ride?_congr (hseating.trans (if_neg hid)) (hroster.trans (if_neg hid))

/-- Those who only wait do not count as riding, whatever the roster says of them. -/
theorem ride?_hold (hout : books.seating.get? party.id = none) (id : UInt64) :
    (books.hold party).ride? id = books.ride? id := by
  by_cases hid : party.id = id
  · rw [hid] at hout
    exact ((books.hold party).ride?_of_not_rides hout).trans
      (books.ride?_of_not_rides hout).symm
  · exact ride?_congr rfl ((books.getElem?_roster_hold party id).trans (if_neg hid))

theorem ride?_leave {id : UInt64} (hout : books.seating.get? id = none) (other : UInt64) :
    (books.leave id).ride? other = books.ride? other := by
  by_cases hid : id = other
  · rw [hid] at hout
    exact ((books.leave id).ride?_of_not_rides hout).trans
      (books.ride?_of_not_rides hout).symm
  · exact ride?_congr rfl ((books.getElem?_roster_leave id other).trans (if_neg hid))

end Changes

namespace Consistent

variable {books : Dispatch} {party : Party}

/-- A party that rides has a size. -/
theorem exists_size (h : books.Consistent) {id vehicle : UInt64} (hride : books.Rides id vehicle) :
    ∃ size, books.roster[id]? = some size :=
  ⟨_, Std.HashMap.getElem?_eq_some_getElem ((h.knows_iff id).mpr (.inl ⟨vehicle, hride⟩))⟩

/-- The size of a party that does not ride can be seen from the queue. -/
theorem size_find?_waiting (h : books.Consistent) {id : UInt64}
    (hout : books.seating.get? id = none) :
    (books.waiting.find? fun party ↦ party.id = id).map Party.size = books.roster[id]? := by
  cases hfound : books.waiting.find? fun party ↦ party.id = id with
  | some party =>
    have hid : party.id = id := by simpa using List.find?_some hfound
    rw [Option.map_some, ← hid, h.roster_of_waiting party (List.mem_of_find?_eq_some hfound)]
  | none =>
    have hnew : ¬ books.Knows id := by
      rw [h.knows_iff]
      rintro (⟨vehicle, hride⟩ | ⟨party, hparty, hid⟩)
      · exact Option.some_ne_none vehicle (hride.symm.trans hout)
      · exact List.find?_eq_none.mp hfound party hparty (by simpa using hid)
    exact (Std.HashMap.getElem?_eq_none hnew).symm

/-- Parties that wait are told apart by their ids. -/
theorem erase_waiting (h : books.Consistent) (hparty : party ∈ books.waiting) :
    books.waiting.erase party = books.waiting.filter (·.id ≠ party.id) := by
  rw [h.nodup_waiting.erase_eq_filter]
  refine List.filter_congr fun other hother ↦ ?_
  have hid : other.id = party.id ↔ other = party :=
    ⟨h.backlog.eq_of_mem hother hparty, fun heq ↦ heq ▸ rfl⟩
  simp [hid, bne, Bool.beq_eq_decide_eq]

end Consistent

end Dispatch

/-! ## Entering what the books go through -/

namespace Ledger

/-- The ledger knows the rides and the queue of the books. -/
structure Describes (ledger : Ledger) (books : Dispatch) : Prop where
  /-- Rides are known with size and vehicle. -/
  riding_eq : ∀ id : UInt64, ledger.riding[id]? = books.ride? id
  /-- The queue is known. -/
  waiting_eq : ledger.waiting = books.waiting

theorem Describes.congr {ledger : Ledger} {books books' : Dispatch} (h : ledger.Describes books)
    (same : books.SameRecords books') : ledger.Describes books' where
  riding_eq id := by
    rw [h.riding_eq, Dispatch.ride?, Dispatch.ride?, same.seating, same.roster]
  waiting_eq := h.waiting_eq.trans (congrArg Backlog.toList same.backlog)

/-- Records can be entered, and lead to a ledger that describes the books. -/
def LeadsTo (ledger : Ledger) (records : List Record) (books : Dispatch) : Prop :=
  ∃ ledger', ledger.replay? records = some ledger' ∧ ledger'.Describes books

theorem LeadsTo.append {ledger : Ledger} {records others : List Record} {books books' : Dispatch}
    (h : ledger.LeadsTo records books)
    (hothers : ∀ ledger' : Ledger, ledger'.Describes books → ledger'.LeadsTo others books') :
    ledger.LeadsTo (records ++ others) books' := by
  obtain ⟨ledger', hreplay, hdescribes⟩ := h
  rw [LeadsTo, replay?_append, hreplay]
  exact hothers ledger' hdescribes

theorem LeadsTo.congr {ledger : Ledger} {records : List Record} {books books' : Dispatch}
    (h : ledger.LeadsTo records books) (same : books.SameRecords books') :
    ledger.LeadsTo records books' := by
  obtain ⟨ledger', hreplay, hdescribes⟩ := h
  exact ⟨ledger', hreplay, hdescribes.congr same⟩

namespace Describes

variable {ledger : Ledger} {books books' : Dispatch} {party : Party} {slot : Slot}

theorem leadsTo_nil (h : ledger.Describes books) : ledger.LeadsTo [] books := ⟨ledger, rfl, h⟩

theorem knows_iff (h : ledger.Describes books) (hbooks : books.Consistent) (id : UInt64) :
    ledger.knows id = true ↔ books.Knows id := by
  have hriding : ledger.riding.contains id = true ↔ ∃ vehicle, books.Rides id vehicle := by
    rw [← Std.HashMap.isSome_getElem?_eq_contains, h.riding_eq]
    constructor
    · intro hsome
      obtain ⟨ride, hride⟩ := Option.isSome_iff_exists.mp hsome
      obtain ⟨vehicle, hvehicle, -⟩ := Option.bind_eq_some_iff.mp hride
      exact ⟨vehicle, hvehicle⟩
    · rintro ⟨vehicle, hride⟩
      obtain ⟨size, hsize⟩ := hbooks.exists_size hride
      rw [Dispatch.ride?_of_rides hride hsize, Option.isSome_some]
  have hwaiting : (ledger.waiting.any fun party ↦ party.id == id) = true ↔ books.Waits id := by
    simp [h.waiting_eq, Dispatch.Waits]
  rw [knows, Bool.or_eq_true, hriding, hwaiting, hbooks.knows_iff]

theorem not_knows (h : ledger.Describes books) (hbooks : books.Consistent) {id : UInt64}
    (hnew : ¬ books.Knows id) : ledger.knows id = false := by
  rw [← Bool.not_eq_true, h.knows_iff hbooks]
  exact hnew

/-- A ledger that describes consistent books agrees with them. -/
theorem agrees (h : ledger.Describes books) (hbooks : books.Consistent) : ledger.Agrees books where
  vehicle_eq id := by
    rw [h.riding_eq]
    cases hride : books.seating.get? id with
    | none => rw [books.ride?_of_not_rides hride, Option.map_none]
    | some vehicle =>
      obtain ⟨size, hsize⟩ := hbooks.exists_size hride
      rw [Dispatch.ride?_of_rides hride hsize, Option.map_some]
  sizeOf?_eq id := by
    rw [sizeOf?, h.riding_eq, h.waiting_eq]
    cases hride : books.seating.get? id with
    | none =>
      rw [books.ride?_of_not_rides hride]
      exact hbooks.size_find?_waiting hride
    | some vehicle =>
      obtain ⟨size, hsize⟩ := hbooks.exists_size hride
      rw [Dispatch.ride?_of_rides hride hsize, hsize]
  waiting_eq := h.waiting_eq

/-! ### One lemma for each change of the books -/

section Changes

variable (h : ledger.Describes books) (time : Reading)

include h

/-- A party that was unknown boards. -/
theorem board (hbooks : books.Consistent) (hnew : ¬ books.Knows party.id) : ledger.LeadsTo
    [.event { kind := .assigned, party, vehicle := slot.vehicle.id, time }]
    (books.board party slot) := by
  refine ⟨{ ledger with riding := ledger.riding.insert party.id ⟨party.size, slot.vehicle.id⟩ },
    ?_, fun id ↦ ?_, h.waiting_eq⟩
  · simp [replay?, enter?, enterEvent?, h.not_knows hbooks hnew]
  · rw [Std.HashMap.getElem?_insert, Dispatch.ride?_board, h.riding_eq]
    simp

/-- A party that was unknown joins the queue. -/
theorem hold (hbooks : books.Consistent) (hnew : ¬ books.Knows party.id)
    (hsize : isSeatCount party.size = true) :
    ledger.LeadsTo [.event { kind := .queued, party, time }] (books.hold party) := by
  refine ⟨{ ledger with waiting := ledger.waiting ++ [party] }, ?_, fun id ↦ ?_, ?_⟩
  · simp [replay?, enter?, enterEvent?, h.not_knows hbooks hnew]
  · rw [Dispatch.ride?_hold (hbooks.get?_of_not_knows hnew), h.riding_eq]
  · rw [h.waiting_eq, hbooks.waiting_hold hnew hsize]

/-- A party leaves the queue. -/
theorem leave (hbooks : books.Consistent) (hparty : party ∈ books.waiting) :
    ledger.LeadsTo [.event { kind := .leftQueue, party, time }] (books.leave party.id) := by
  refine ⟨{ ledger with waiting := ledger.waiting.erase party }, ?_, fun id ↦ ?_, ?_⟩
  · simp [replay?, enter?, enterEvent?, h.waiting_eq, hparty]
  · rw [Dispatch.ride?_leave (hbooks.get?_of_waits ⟨party, hparty, rfl⟩), h.riding_eq]
  · rw [h.waiting_eq, hbooks.erase_waiting hparty, hbooks.waiting_leave]

/-- A party alights. -/
theorem alight (party : Party) (hride : books.Rides party.id slot.vehicle.id)
    (hsize : books.roster[party.id]? = some party.size) : ledger.LeadsTo
    [.event { kind := .droppedOff, party, vehicle := slot.vehicle.id, time }]
    (books.alight party slot) := by
  refine ⟨{ ledger with riding := ledger.riding.erase party.id }, ?_, fun id ↦ ?_, h.waiting_eq⟩
  · simp [replay?, enter?, enterEvent?, h.riding_eq, Dispatch.ride?_of_rides hride hsize]
  · rw [Std.HashMap.getElem?_erase, Dispatch.ride?_alight, h.riding_eq]
    simp

/-- A party boards out of the queue. -/
theorem pickUp (slot : Slot) (hbooks : books.Consistent) (hparty : party ∈ books.waiting) :
    ledger.LeadsTo
    [.event { kind := .reallocated, party, vehicle := slot.vehicle.id, time }]
    (books.pickUp party slot) := by
  refine ⟨{ riding := ledger.riding.insert party.id ⟨party.size, slot.vehicle.id⟩
            waiting := ledger.waiting.erase party }, ?_, fun id ↦ ?_, ?_⟩
  · simp [replay?, enter?, enterEvent?, h.waiting_eq, hparty]
  · rw [Std.HashMap.getElem?_insert, Dispatch.ride?_pickUp (hbooks.roster_of_waiting party hparty),
      h.riding_eq]
    simp
  · rw [h.waiting_eq, hbooks.erase_waiting hparty]
    exact (hbooks.waiting_leave party.id).symm

/-- A known party is turned away. -/
theorem duplicate (hbooks : books.Consistent) (hknows : books.Knows party.id) :
    ledger.LeadsTo [.event { kind := .duplicateRejected, party, time }] books := by
  refine ⟨ledger, ?_, h⟩
  simp [replay?, enter?, enterEvent?, (h.knows_iff hbooks party.id).mpr hknows]

/-- An unknown party has nothing to end. -/
theorem unknown (hbooks : books.Consistent) (hnew : ¬ books.Knows party.id) :
    ledger.LeadsTo [.event { kind := .notFound, party, time }] books := by
  refine ⟨ledger, ?_, h⟩
  simp [replay?, enter?, enterEvent?, h.not_knows hbooks hnew]

end Changes

/-- The records of a pass are entered in the order in which the parties are seated. -/
theorem seatAll {ledger : Ledger} {pass : Pass} {roster : Std.HashMap UInt64 UInt32} {slot : Slot}
    {parties : List Party} (hready : pass.Ready roster slot parties) (time : Reading)
    (h : ledger.Describes (pass.books roster)) : ledger.LeadsTo
      (parties.map fun party ↦
        .event { kind := .reallocated, party, vehicle := slot.vehicle.id, time })
      ((Pass.seatAll slot.vehicle.id pass parties).books roster) := by
  induction parties generalizing ledger pass slot with
  | nil => exact ⟨ledger, rfl, h⟩
  | cons party rest ih =>
    have hfirst := h.pickUp time slot hready.consistent
      (hready.mem_waiting party List.mem_cons_self)
    rw [← hready.books_seat] at hfirst
    rw [hready.seatAll_cons]
    refine hfirst.append fun ledger' h' ↦ ?_
    have hrest := ih hready.seat h'
    rwa [Slot.vehicle_withAvailable] at hrest

/-- What an operation on the books records can be entered, and leads to the books afterwards. -/
theorem perform (h : ledger.Describes books) (hbooks : books.Consistent) (operation : Operation)
    (time : Reading) : ledger.LeadsTo
      ((books.perform operation).batch.stamped time).records (books.apply operation) := by
  cases operation with
  | reset vehicles =>
    refine ⟨{}, rfl, fun id ↦ ?_, hbooks.backlog.toList_clear.symm⟩
    simp [Dispatch.apply, Dispatch.reset, Dispatch.ride?, Seating.get?]
  | requestJourney party =>
    rw [Dispatch.perform, Dispatch.apply]
    cases hbooks.requested party with
    | invalid hsize heq =>
      rw [heq]
      exact h.leadsTo_nil.congr ⟨rfl, rfl, rfl, rfl⟩
    | duplicate hsize hknows heq =>
      rw [heq]
      exact (h.duplicate time hbooks hknows).congr ⟨rfl, rfl, rfl, rfl⟩
    | assigned slot hsize hnew hslot hfit hleast heq =>
      rw [heq]
      exact (h.board time hbooks hnew).congr ⟨rfl, rfl, rfl, rfl⟩
    | queued hsize hnew hfull heq =>
      rw [heq]
      exact (h.hold time hbooks hnew hsize).congr ⟨rfl, rfl, rfl, rfl⟩
  | dropoff id =>
    rw [Dispatch.perform, Dispatch.apply]
    cases hbooks.ended id with
    | unknown hnew heq =>
      rw [heq]
      exact (h.unknown time hbooks hnew).congr ⟨rfl, rfl, rfl, rfl⟩
    | left size hparty heq =>
      rw [heq]
      exact (h.leave time hbooks hparty).congr ⟨rfl, rfl, rfl, rfl⟩
    | alighted size slot pass report hride hslot hsize hpass hreport heq =>
      have halighted : (books.alight ⟨id, size⟩ slot).Consistent := hbooks.alight hride hslot hsize
      have hfound := hbooks.find?_alighted ⟨id, size⟩ hslot
      have hleads := (h.alight time ⟨id, size⟩ hride hsize).append fun ledger' h' ↦
        Describes.seatAll (halighted.ready hfound) time (h'.congr ⟨rfl, rfl, rfl, rfl⟩)
      have hreported : ledger.LeadsTo (_ ++ [.report report]) _ := hleads.append fun ledger' h' ↦
        ⟨ledger', rfl, h'⟩
      have hevents := (halighted.refill hfound).events_eq.trans (List.nil_append _)
      rw [heq, hpass]
      simp only [Dispatch.Step.map, Batch.stamped, Batch.records, List.map_cons, hevents,
        List.map_map]
      exact hreported.congr ⟨rfl, rfl, rfl, rfl⟩
  | locate id => exact h.leadsTo_nil.congr ⟨rfl, rfl, rfl, rfl⟩
  | setManager manager => exact h.leadsTo_nil
  | readClock now => exact h.leadsTo_nil

end Describes

end Ledger

end RideShare
