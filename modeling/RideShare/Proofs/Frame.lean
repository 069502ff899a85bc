import RideShare.Proofs.Arrivals
import RideShare.Proofs.Register

/-!
# What an operation leaves alone

Apart from a reset, an operation is about one party at most. Yet the end of a journey can move any
number of others, since the seats that get free are offered to the whole backlog in one pass.

What holds is that the effects stay on one vehicle. Those who are moved waited before, and board the
vehicle that got its seats back; everybody else stays where they are, and so does every other
vehicle, down to its place in its bucket. `Fleet.SameBut` says this of the vehicles. It is
transitive, so it holds of a pass since it holds of each step, and `Dispatch.Frame` puts it together
with what happens to the parties.

## Main statements

* `Fleet.Sound.sameBut_withAvailable`: setting the free seats of a vehicle touches no other;
* `Pass.Ready.sameBut_seatAll`: neither does a pass over the backlog;
* `Dispatch.Orderly.frame`: what an operation other than a reset leaves alone.
-/

namespace RideShare

/-- A sublist of a list without duplicates is found by looking for its members. -/
theorem filter_mem_of_sublist {α : Type} [DecidableEq α] {list kept : List α}
    (hsub : kept.Sublist list) (hnodup : list.Nodup) : list.filter (· ∈ kept) = kept := by
  have hkept := hsub.filter (· ∈ kept)
  rw [List.filter_eq_self.mpr fun x hx ↦ decide_eq_true hx] at hkept
  refine (hkept.eq_of_length_le (List.Subperm.length_le ?_)).symm
  refine List.subperm_of_subset (hnodup.filter _) fun x hx ↦ ?_
  exact of_decide_eq_true (List.mem_filter.mp hx).2

/-! ## Vehicles -/

namespace Fleet

/-- Nothing has happened to any vehicle but one. -/
structure SameBut (fleet fleet' : Fleet) (vehicle : UInt64) : Prop where
  /-- The vehicles are those that were loaded. -/
  vehicles_eq : fleet'.slots.map Slot.vehicle = fleet.slots.map Slot.vehicle
  /-- Every other vehicle has as many seats free as before. -/
  find?_eq : ∀ other, other ≠ vehicle → fleet'.find? other = fleet.find? other
  /-- The other vehicles stand in the same order in each bucket. -/
  bucketList_eq : ∀ level, (fleet'.bucketList level).filter (·.vehicle.id ≠ vehicle) =
    (fleet.bucketList level).filter (·.vehicle.id ≠ vehicle)

theorem SameBut.refl (fleet : Fleet) (vehicle : UInt64) : fleet.SameBut fleet vehicle :=
  ⟨rfl, fun _ _ ↦ rfl, fun _ ↦ rfl⟩

theorem SameBut.trans {fleet fleet' fleet'' : Fleet} {vehicle : UInt64}
    (h : fleet.SameBut fleet' vehicle) (h' : fleet'.SameBut fleet'' vehicle) :
    fleet.SameBut fleet'' vehicle where
  vehicles_eq := h'.vehicles_eq.trans h.vehicles_eq
  find?_eq other hother := (h'.find?_eq other hother).trans (h.find?_eq other hother)
  bucketList_eq level := (h'.bucketList_eq level).trans (h.bucketList_eq level)

namespace Sound

variable {fleet : Fleet} {vehicle : UInt64} {i : Nat} {slot : Slot} {available : UInt32}

/-- A bucket without one vehicle is a row without one place. -/
private theorem filter_bucketList (h : fleet.Sound) (hi : fleet.slots[i]? = some slot)
    (level : Nat) : (fleet.bucketList level).filter (·.vehicle.id ≠ slot.vehicle.id) =
      ((fleet.row level).filter (· ≠ i)).map fun j ↦ fleet.slots.getD j default := by
  refine List.filter_map.trans (congrArg (List.map _) (List.filter_congr fun j hj ↦ ?_))
  obtain ⟨other, hother, -⟩ := (h.mem_row j level).mp hj
  have hsame : other.vehicle.id = slot.vehicle.id ↔ j = i := by
    refine ⟨h.eq_of_id_eq hother hi, ?_⟩
    rintro rfl
    rw [Option.some.inj (hother.symm.trans hi)]
  simp only [Function.comp_apply, Array.getD_eq_getD_getElem?, hother, Option.getD_some, ne_eq,
    hsame]

/-- Leaving a bucket for another changes the order of nobody else in either. -/
theorem bucketList_setAvailable (h : fleet.Sound) (hi : fleet.slots[i]? = some slot)
    (hle : available ≤ slot.vehicle.capacity) (level : Nat) :
    ((fleet.setAvailable i available).bucketList level).filter
        (·.vehicle.id ≠ slot.vehicle.id) =
      (fleet.bucketList level).filter (·.vehicle.id ≠ slot.vehicle.id) := by
  by_cases hsame : available = slot.available
  · rw [hsame, setAvailable_self hi]
  have hslots := getElem?_slots_setAvailable hi available
  have hrow : ((fleet.setAvailable i available).row level).filter (· ≠ i) =
      (fleet.row level).filter (· ≠ i) := by
    rw [h.row_setAvailable hi hle hsame]
    split
    · simp
    · rw [(h.members level).chain.nodup.erase_eq_filter, List.filter_filter]
      exact List.filter_congr fun j _ ↦ by by_cases hj : j = i <;> simp [hj]
  have hi' : (fleet.setAvailable i available).slots[i]? = some (slot.withAvailable available) :=
    (hslots i).trans (if_pos rfl)
  refine ((h.setAvailable hi hle).filter_bucketList hi' level).trans ?_
  rw [hrow, h.filter_bucketList hi]
  refine List.map_congr_left fun j hj ↦ ?_
  have hne : i ≠ j := by
    rintro rfl
    simp at hj
  rw [Array.getD_eq_getD_getElem?, hslots, if_neg hne, Array.getD_eq_getD_getElem?]

/-- Setting the free seats of a vehicle touches no other. -/
theorem sameBut_withAvailable (h : fleet.Sound) (hslot : fleet.find? vehicle = some slot)
    (hle : available ≤ slot.vehicle.capacity) :
    fleet.SameBut (fleet.withAvailable vehicle available) vehicle := by
  obtain ⟨i, hindex, hi⟩ := h.exists_index hslot
  obtain rfl := h.id_eq_of_find? hslot
  refine ⟨?_, fun other hother ↦ h.find?_withAvailable_of_ne hslot available hother, ?_⟩
  · rw [Fleet.withAvailable, hindex]
    exact vehicles_setAvailable hi available
  · rw [Fleet.withAvailable, hindex]
    exact h.bucketList_setAvailable hi hle

/-- A vehicle that is found has been loaded. -/
theorem get?_eq_some_iff (h : fleet.Sound) {id : UInt64} {vehicle : Vehicle} :
    fleet.get? id = some vehicle ↔ vehicle ∈ fleet.slots.map Slot.vehicle ∧ vehicle.id = id := by
  rw [get?, Option.map_eq_some_iff, Array.mem_map]
  constructor
  · rintro ⟨slot, hslot, rfl⟩
    obtain ⟨hmem, hid⟩ := h.find?_eq_some_iff.mp hslot
    exact ⟨⟨slot, hmem, rfl⟩, hid⟩
  · rintro ⟨⟨slot, hmem, rfl⟩, hid⟩
    exact ⟨slot, h.find?_eq_some_iff.mpr ⟨hmem, hid⟩, rfl⟩

end Sound

end Fleet

/-- A pass over the backlog touches no vehicle but the one it fills. -/
theorem Pass.Ready.sameBut_seatAll {pass : Pass} {roster : Std.HashMap UInt64 UInt32} {slot : Slot}
    {parties : List Party} (h : pass.Ready roster slot parties) :
    pass.fleet.SameBut (Pass.seatAll slot.vehicle.id pass parties).fleet slot.vehicle.id := by
  rw [h.seatAll_eq]
  induction parties generalizing pass slot with
  | nil => exact .refl _ _
  | cons party rest ih =>
    have hrest := ih h.seat
    have hfirst : pass.fleet.SameBut (pass.seat slot.vehicle.id party).fleet slot.vehicle.id := by
      have hsub := UInt32.toNat_sub_of_le _ _ h.size_le
      have hle := (h.consistent.fleet.proper_of_find? h.find?_eq).toNat_le
      rw [Pass.seat, h.tryReserve_eq]
      refine h.consistent.fleet.sameBut_withAvailable h.find?_eq ?_
      rw [UInt32.le_iff_toNat_le]
      omega
    rw [Slot.vehicle_withAvailable] at hrest
    exact hfirst.trans hrest

/-! ## Parties -/

/-- The party that an operation is about, if it is about one. -/
def Operation.party? : Operation → Option UInt64
  | .requestJourney party => some party.id
  | .dropoff id | .locate id => some id
  | .reset _ | .setManager _ | .readClock _ => none

/-- The load that an operation brings to the fleet, if it is a reset. -/
def Operation.load? : Operation → Option Fleet.Operation
  | .reset vehicles => some (.reset vehicles)
  | _ => none

theorem Operation.load?_cases (operation : Operation) :
    operation.load? = none ∨ ∃ vehicles, operation = .reset vehicles := by
  cases operation with
  | reset vehicles => exact .inr ⟨vehicles, rfl⟩
  | requestJourney party => exact .inl rfl
  | dropoff id => exact .inl rfl
  | locate id => exact .inl rfl
  | setManager manager => exact .inl rfl
  | readClock now => exact .inl rfl

namespace Dispatch

instance (books : Dispatch) : DecidablePred books.Waits :=
  fun _ ↦ inferInstanceAs (Decidable (∃ party ∈ books.waiting, _))

/-! ### Where they are -/

section Whereabouts

variable {books books' : Dispatch} {id : UInt64}

theorem whereabouts_eq_unknown_iff : books.whereabouts id = .unknown ↔ ¬ books.Knows id := by
  rw [whereabouts, Knows, ← Std.HashMap.contains_iff_mem]
  split
  next hknows => cases books.seating.get? id <;> simp [hknows]
  next hknows => simp [hknows]

namespace Consistent

theorem whereabouts_of_waits (h : books.Consistent) (hwait : books.Waits id) :
    books.whereabouts id = .waiting := by
  have hknows : books.roster.contains id = true :=
    Std.HashMap.contains_iff_mem.mpr ((h.knows_iff id).mpr (.inr hwait))
  rw [whereabouts, if_pos hknows, h.get?_of_waits hwait]

theorem whereabouts_of_rides (h : books.Consistent) {vehicle : Vehicle}
    (hride : books.Rides id vehicle.id) (hloaded : vehicle ∈ books.fleet.slots.map Slot.vehicle) :
    books.whereabouts id = .riding vehicle := by
  have hknows : books.roster.contains id = true :=
    Std.HashMap.contains_iff_mem.mpr ((h.knows_iff id).mpr (.inl ⟨_, hride⟩))
  have hget := h.fleet.get?_eq_some_iff.mpr ⟨hloaded, rfl⟩
  rw [Rides] at hride
  rw [whereabouts, if_pos hknows, hride]
  simp only [hget, Option.getD_some]

/-- The vehicle of a rider, as it was loaded. -/
theorem exists_vehicle (h : books.Consistent) {vehicle : UInt64} (hride : books.Rides id vehicle) :
    ∃ loaded : Vehicle, loaded.id = vehicle ∧ loaded ∈ books.fleet.slots.map Slot.vehicle := by
  obtain ⟨slot, hslot⟩ := h.exists_slot hride
  obtain ⟨hmem, hid⟩ := h.fleet.find?_eq_some_iff.mp hslot
  exact ⟨slot.vehicle, hid, Array.mem_map_of_mem hmem⟩

theorem whereabouts_eq_waiting_iff (h : books.Consistent) :
    books.whereabouts id = .waiting ↔ books.Waits id := by
  refine ⟨fun hfound ↦ ?_, h.whereabouts_of_waits⟩
  have hknows : books.Knows id := by
    by_contra hnew
    simp [whereabouts_eq_unknown_iff.mpr hnew] at hfound
  rcases (h.knows_iff id).mp hknows with ⟨_, hride⟩ | hwait
  · obtain ⟨vehicle, rfl, hloaded⟩ := h.exists_vehicle hride
    simp [h.whereabouts_of_rides hride hloaded] at hfound
  · exact hwait

/-- A rider is found on its vehicle, as that was loaded. -/
theorem whereabouts_eq_riding_iff (h : books.Consistent) {vehicle : Vehicle} :
    books.whereabouts id = .riding vehicle ↔
      books.Rides id vehicle.id ∧ vehicle ∈ books.fleet.slots.map Slot.vehicle := by
  refine ⟨fun hfound ↦ ?_, fun ⟨hride, hloaded⟩ ↦ h.whereabouts_of_rides hride hloaded⟩
  have hknows : books.Knows id := by
    by_contra hnew
    simp [whereabouts_eq_unknown_iff.mpr hnew] at hfound
  rcases (h.knows_iff id).mp hknows with ⟨_, hride⟩ | hwait
  · obtain ⟨loaded, rfl, hloaded⟩ := h.exists_vehicle hride
    rw [h.whereabouts_of_rides hride hloaded, Whereabouts.riding.injEq] at hfound
    exact hfound ▸ ⟨hride, hloaded⟩
  · simp [h.whereabouts_of_waits hwait] at hfound

end Consistent

/-- A party is found in the same place if the books say the same of it. -/
theorem whereabouts_congr (hroster : books'.roster[id]? = books.roster[id]?)
    (hseat : books'.seating.get? id = books.seating.get? id)
    (hfleet : ∀ vehicle, books'.fleet.get? vehicle = books.fleet.get? vehicle) :
    books'.whereabouts id = books.whereabouts id := by
  have hknows : books'.roster.contains id = books.roster.contains id := by
    rw [← Std.HashMap.isSome_getElem?_eq_contains, hroster, Std.HashMap.isSome_getElem?_eq_contains]
  simp only [whereabouts, hknows, hseat, hfleet]

theorem SameRecords.whereabouts_eq (same : books.SameRecords books') (id : UInt64) :
    books'.whereabouts id = books.whereabouts id :=
  whereabouts_congr (by rw [same.roster]) (by rw [same.seating]) fun vehicle ↦ by rw [same.fleet]

end Whereabouts

/-! ### What happens to them -/

namespace Consistent

variable {books : Dispatch} {operation : Operation}

/-- Everybody else has the size they had, and is in the books if they were. -/
theorem roster_apply_of_ne (h : books.Consistent) (hreset : operation.load? = none)
    {other : UInt64} (hother : operation.party? ≠ some other) :
    (books.apply operation).roster[other]? = books.roster[other]? := by
  cases h.changed operation with
  | kept harrival hremoves same => rw [same.roster]
  | emptied vehicles hoperation same => simp [hoperation, Operation.load?] at hreset
  | boarded party slot hoperation harrival hsize hnew hslot hfit same =>
    have hne : party.id ≠ other := fun hid ↦ hother (hoperation ▸ congrArg some hid)
    rw [← same.roster, getElem?_roster_board, if_neg hne]
  | held party hoperation harrival hsize hnew same =>
    have hne : party.id ≠ other := fun hid ↦ hother (hoperation ▸ congrArg some hid)
    rw [← same.roster, getElem?_roster_hold, if_neg hne]
  | left id hoperation hwait same =>
    have hne : id ≠ other := fun hid ↦ hother (hoperation ▸ congrArg some hid)
    rw [← same.roster, getElem?_roster_leave, if_neg hne]
  | refilled party slot hoperation hride hslot hsize same =>
    have hne : party.id ≠ other := fun hid ↦ hother (hoperation ▸ congrArg some hid)
    rw [← same.roster]
    exact (books.getElem?_roster_alight party slot other).trans (if_neg hne)

/-- Everybody else stays seated or unseated, unless they are picked up from the backlog. -/
theorem seating_apply_of_ne (h : books.Consistent) (hreset : operation.load? = none)
    {other : UInt64} (hother : operation.party? ≠ some other) :
    (books.apply operation).seating.get? other = books.seating.get? other ∨
      books.Waits other ∧ ∃ id vehicle, operation = .dropoff id ∧ books.Rides id vehicle ∧
        (books.apply operation).Rides other vehicle := by
  cases h.changed operation with
  | kept harrival hremoves same => exact .inl (by rw [same.seating])
  | emptied vehicles hoperation same => simp [hoperation, Operation.load?] at hreset
  | boarded party slot hoperation harrival hsize hnew hslot hfit same =>
    have hne : party.id ≠ other := fun hid ↦ hother (hoperation ▸ congrArg some hid)
    rw [← same.seating]
    exact .inl ((books.seating.get?_set party.id slot.vehicle.id other).trans (if_neg hne))
  | held party hoperation harrival hsize hnew same => exact .inl (by rw [← same.seating]; rfl)
  | left id hoperation hwait same => exact .inl (by rw [← same.seating]; rfl)
  | refilled party slot hoperation hride hslot hsize same =>
    have hne : party.id ≠ other := fun hid ↦ hother (hoperation ▸ congrArg some hid)
    have hserved := (h.alight hride hslot hsize).refill (h.find?_alighted party hslot)
    have hseat := hserved.get?_eq other
    rw [Slot.available_withAvailable] at hseat
    by_cases hchosen : other ∈ (fill (slot.freed party.size).toNat books.waiting).map Party.id
    · obtain ⟨chosen, hmem, hid⟩ := List.mem_map.mp hchosen
      refine .inr ⟨⟨chosen, (fill_sublist _ _).subset hmem, hid⟩, party.id, slot.vehicle.id,
        hoperation, hride, ?_⟩
      rw [Rides, ← same.seating]
      exact hseat.trans (if_pos hchosen)
    · rw [← same.seating]
      refine .inl ((hseat.trans (if_neg hchosen)).trans ?_)
      exact (books.seating.get?_erase party.id other).trans (if_neg hne)

/-- The end of a journey touches no vehicle but the one that is filled again. -/
theorem sameBut_refill_alight (h : books.Consistent) {party : Party} {slot : Slot}
    (hride : books.Rides party.id slot.vehicle.id)
    (hslot : books.fleet.find? slot.vehicle.id = some slot)
    (hsize : books.roster[party.id]? = some party.size) :
    books.fleet.SameBut
      ((books.alight party slot).refill (slot.withAvailable (slot.freed party.size))).fleet
      slot.vehicle.id :=
  (h.fleet.sameBut_withAvailable hslot ((h.fleet.proper_of_find? hslot).freed_le _)).trans
    ((h.alight hride hslot hsize).ready (h.find?_alighted party hslot)).sameBut_seatAll

/-- No vehicle is touched, or none but the one that the party gets or leaves. -/
theorem fleet_apply (h : books.Consistent) (hreset : operation.load? = none) :
    (books.apply operation).fleet = books.fleet ∨ ∃ id vehicle, operation.party? = some id ∧
      (¬ books.Knows id ∧ (books.apply operation).Rides id vehicle ∨
        books.Rides id vehicle ∧ ¬ (books.apply operation).Knows id) ∧
      books.fleet.SameBut (books.apply operation).fleet vehicle := by
  cases h.changed operation with
  | kept harrival hremoves same => exact .inl same.fleet.symm
  | emptied vehicles hoperation same => simp [hoperation, Operation.load?] at hreset
  | boarded party slot hoperation harrival hsize hnew hslot hfit same =>
    refine .inr ⟨party.id, slot.vehicle.id, hoperation ▸ rfl, .inl ⟨hnew, ?_⟩, ?_⟩
    · rw [← same.rides_iff, rides_board, if_pos rfl]
    · have hsub := UInt32.toNat_sub_of_le _ _ hfit
      have hle := (h.fleet.proper_of_find? hslot).toNat_le
      rw [← same.fleet]
      refine h.fleet.sameBut_withAvailable hslot ?_
      rw [UInt32.le_iff_toNat_le]
      omega
  | held party hoperation harrival hsize hnew same => exact .inl same.fleet.symm
  | left id hoperation hwait same => exact .inl same.fleet.symm
  | refilled party slot hoperation hride hslot hsize same =>
    refine .inr ⟨party.id, slot.vehicle.id, hoperation ▸ rfl, .inr ⟨hride, ?_⟩, ?_⟩
    · exact h.not_knows_apply (hoperation ▸ rfl)
    · rw [← same.fleet]
      exact h.sameBut_refill_alight hride hslot hsize

/-- The vehicles are those that were loaded. -/
theorem vehicles_apply (h : books.Consistent) (hreset : operation.load? = none) :
    (books.apply operation).fleet.slots.map Slot.vehicle = books.fleet.slots.map Slot.vehicle := by
  rcases h.fleet_apply hreset with hsame | ⟨id, vehicle, -, -, hsame⟩
  · rw [hsame]
  · exact hsame.vehicles_eq

/-- Those who waited and still wait stand in the same order. -/
theorem line_apply (h : books.Consistent) (operation : Operation) :
    (books.apply operation).waiting.filter (fun party ↦ books.Waits party.id) =
      books.waiting.filter (fun party ↦ (books.apply operation).Waits party.id) := by
  have hwaits {party : Party} (hparty : party ∈ books.waiting) : books.Waits party.id :=
    ⟨party, hparty, rfl⟩
  rcases h.waiting_apply operation with hsub | ⟨party, -, hnew, hwaiting⟩
  · rw [List.filter_eq_self.mpr fun party hparty ↦ decide_eq_true (hwaits (hsub.subset hparty)),
      ← filter_mem_of_sublist hsub h.nodup_waiting]
    refine List.filter_congr fun party hparty ↦ decide_eq_decide.mpr ⟨fun hstays ↦ ?_, ?_⟩
    · exact ⟨party, hstays, rfl⟩
    · rintro ⟨other, hother, hid⟩
      exact h.backlog.eq_of_mem (hsub.subset hother) hparty hid ▸ hother
  · have hout : ¬ books.Waits party.id := h.not_waits_of_not_knows hnew
    have hstay {other : Party} (hother : other ∈ books.waiting) :
        (books.apply operation).Waits other.id :=
      ⟨other, hwaiting ▸ List.mem_append_left [party] hother, rfl⟩
    rw [List.filter_eq_self.mpr fun other hother ↦ decide_eq_true (hstay hother), hwaiting,
      List.filter_append, List.filter_eq_self.mpr fun other hother ↦ decide_eq_true (hwaits hother)]
    simp [hout]

end Consistent

/-! ## The frame of an operation -/

/-- What an operation other than a reset has left alone. -/
structure Frame (books books' : Dispatch) (operation : Operation) : Prop where
  /-- Every other party is where it was. Only if it waited, and the operation ended the journey of a
  rider, it may ride instead, on the vehicle of that journey. -/
  others : ∀ other, operation.party? ≠ some other →
    books'.whereabouts other = books.whereabouts other ∨
      books.whereabouts other = .waiting ∧ ∃ id vehicle, operation = .dropoff id ∧
        books.whereabouts id = .riding vehicle ∧ books'.whereabouts other = .riding vehicle
  /-- Every other party has the size it had. -/
  sizes : ∀ other, operation.party? ≠ some other → books'.roster[other]? = books.roster[other]?
  /-- Those who waited and still wait stand in the same order, with the same sizes. -/
  line : books'.waiting.filter (fun party ↦ books.Waits party.id) =
    books.waiting.filter (fun party ↦ books'.Waits party.id)
  /-- No vehicle was touched, or none but the one that the party got or left. -/
  fleet : books'.fleet = books.fleet ∨ ∃ id vehicle, operation.party? = some id ∧
    (books.whereabouts id = .unknown ∧ books'.whereabouts id = .riding vehicle ∨
      books.whereabouts id = .riding vehicle ∧ books'.whereabouts id = .unknown) ∧
    books.fleet.SameBut books'.fleet vehicle.id

namespace Orderly

variable {books : Dispatch} {operation : Operation}

theorem frame (h : books.Orderly) (hreset : operation.load? = none) :
    books.Frame (books.apply operation) operation := by
  have hafter := h.apply operation
  have hvehicles := h.vehicles_apply hreset
  have hget (vehicle : UInt64) :
      (books.apply operation).fleet.get? vehicle = books.fleet.get? vehicle := by
    refine Option.ext fun other ↦ ?_
    rw [hafter.fleet.get?_eq_some_iff, h.fleet.get?_eq_some_iff, hvehicles]
  refine ⟨fun other hother ↦ ?_, fun _ ↦ h.roster_apply_of_ne hreset, h.line_apply operation, ?_⟩
  · rcases h.seating_apply_of_ne hreset hother with
      hseat | ⟨hwait, id, _, hoperation, hride, hride'⟩
    · exact .inl (whereabouts_congr (h.roster_apply_of_ne hreset hother) hseat hget)
    · obtain ⟨vehicle, rfl, hmem⟩ := h.exists_vehicle hride
      exact .inr ⟨h.whereabouts_eq_waiting_iff.mpr hwait, id, vehicle, hoperation,
        h.whereabouts_eq_riding_iff.mpr ⟨hride, hmem⟩,
        hafter.whereabouts_eq_riding_iff.mpr ⟨hride', hvehicles ▸ hmem⟩⟩
  · rcases h.fleet_apply hreset with hsame | ⟨id, _, hparty, ⟨hnew, hride⟩ | ⟨hride, hgone⟩, hsame⟩
    · exact .inl hsame
    · obtain ⟨vehicle, rfl, hmem⟩ := hafter.exists_vehicle hride
      exact .inr ⟨id, vehicle, hparty, .inl ⟨whereabouts_eq_unknown_iff.mpr hnew,
        hafter.whereabouts_eq_riding_iff.mpr ⟨hride, hmem⟩⟩, hsame⟩
    · obtain ⟨vehicle, rfl, hmem⟩ := h.exists_vehicle hride
      exact .inr ⟨id, vehicle, hparty, .inr ⟨h.whereabouts_eq_riding_iff.mpr ⟨hride, hmem⟩,
        whereabouts_eq_unknown_iff.mpr hgone⟩, hsame⟩

end Orderly

theorem Frame.congr {books books' books'' : Dispatch} {operation : Operation}
    (h : books.Frame books' operation) (same : books'.SameRecords books'') :
    books.Frame books'' operation := by
  have hwaits (id : UInt64) : books''.Waits id ↔ books'.Waits id := by
    rw [Waits, Waits, same.waiting_eq]
  refine ⟨?_, ?_, ?_, ?_⟩
  · simpa only [same.whereabouts_eq] using h.others
  · simpa only [same.roster] using h.sizes
  · simpa only [same.waiting_eq, hwaits] using h.line
  · simpa only [same.whereabouts_eq, same.fleet] using h.fleet

end Dispatch

end RideShare
