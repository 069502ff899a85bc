import Mathlib.Algebra.Ring.Nat
import Mathlib.Tactic.ByContra
import RideShare.Bucket.Members
import RideShare.Fleet

/-!
# Vehicles in their buckets

A vehicle stands in exactly one bucket, the one numbered by its free seats. `Fleet.Sound` says so,
together with what the index, the slots and the number of seats have to do with each other.

Taking seats and giving them back are one operation at heart, `Fleet.withAvailable`: the free seats
of one vehicle are set, and the vehicle goes to the end of its new bucket unless their number stays
the same. The three operations of a fleet differ only in the vehicle and the number, and are
reduced to it first.

## Main statements

* `Fleet.sound_ofVehicles` and `Fleet.Sound.withAvailable`: loading and setting seats keep the fleet
  sound;
* `Fleet.Sound.find?_withAvailable`: nobody else's seats change;
* `Fleet.Sound.reserve_cases`: what a search finds, and when it finds nothing.
-/

namespace RideShare

/-- What holds of a vehicle as long as it is loaded. -/
structure Slot.Proper (slot : Slot) : Prop where
  /-- It has an id. -/
  id_ne : slot.vehicle.id ≠ noVehicle
  /-- It has as many seats as vehicles have. -/
  isSeatCount_capacity : isSeatCount slot.vehicle.capacity
  /-- No more seats are free than there are. -/
  available_le : slot.available ≤ slot.vehicle.capacity

theorem Slot.Proper.toNat_le {slot : Slot} (h : slot.Proper) :
    slot.available.toNat ≤ slot.vehicle.capacity.toNat ∧ 1 ≤ slot.vehicle.capacity.toNat ∧
      slot.vehicle.capacity.toNat ≤ 6 :=
  ⟨UInt32.le_iff_toNat_le.mp h.available_le, isSeatCount_iff.mp h.isSeatCount_capacity⟩

/-- Taking seats leaves no more of them free than there are. -/
theorem Slot.Proper.sub_le {slot : Slot} (h : slot.Proper) {size : UInt32}
    (hle : size ≤ slot.available) : slot.available - size ≤ slot.vehicle.capacity :=
  UInt32.le_trans (UInt32.sub_le hle) h.available_le

/-- The slot with another number of free seats. -/
def Slot.withAvailable (slot : Slot) (available : UInt32) : Slot := { slot with available }

@[simp] theorem Slot.vehicle_withAvailable (slot : Slot) (available : UInt32) :
    (slot.withAvailable available).vehicle = slot.vehicle := rfl

@[simp] theorem Slot.available_withAvailable (slot : Slot) (available : UInt32) :
    (slot.withAvailable available).available = available := rfl

namespace Fleet

/-- The vehicles with `level` free seats, by their place in the fleet, in the order of their
bucket. -/
def row (fleet : Fleet) (level : Nat) : List Nat := (fleet.bucket level).toList fleet.links

/-- Slots, buckets and index agree on the vehicles and their free seats. -/
structure Sound (fleet : Fleet) : Prop where
  /-- Every vehicle has a link. -/
  size_links : fleet.links.size = fleet.slots.size
  /-- There is a bucket for every number of free seats. -/
  size_buckets : fleet.buckets.size = seatLevels
  /-- The buckets are chained up. -/
  members : ∀ level, (fleet.bucket level).HasMembers fleet.links (fleet.row level)
  /-- A vehicle stands in the bucket numbered by its free seats. -/
  mem_row : ∀ i level, i ∈ fleet.row level ↔
    ∃ slot : Slot, fleet.slots[i]? = some slot ∧ slot.available.toNat = level
  /-- The index finds the vehicles by their ids. -/
  index_eq : ∀ id i, fleet.index[id]? = some i ↔
    ∃ slot : Slot, fleet.slots[i]? = some slot ∧ slot.vehicle.id = id
  /-- Only proper vehicles are loaded. -/
  proper : ∀ slot ∈ fleet.slots, slot.Proper
  /-- The seats are counted. -/
  totalSeats_eq : fleet.totalSeats =
    (fleet.slots.toList.map fun slot : Slot ↦ slot.vehicle.capacity.toNat).sum

/-- Replacing one bucket leaves the others. -/
private theorem getD_setIfInBounds {buckets : Array Bucket} {i : Nat} (hi : i < buckets.size)
    (bucket : Bucket) (j : Nat) :
    (buckets.setIfInBounds i bucket).getD j {} = if i = j then bucket else buckets.getD j {} := by
  rw [Array.getD_eq_getD_getElem?, Array.getD_eq_getD_getElem?, Array.getElem?_setIfInBounds]
  by_cases hij : i = j
  · subst hij
    simp [hi]
  · simp [hij]

namespace Sound

variable {fleet : Fleet}

/-! ## Looking up -/

theorem proper_of_getElem? (h : fleet.Sound) {i : Nat} {slot : Slot}
    (hi : fleet.slots[i]? = some slot) : slot.Proper :=
  h.proper slot (Array.mem_of_getElem? hi)

/-- Two places hold vehicles with the same id only if they are the same place. -/
theorem eq_of_id_eq (h : fleet.Sound) {i j : Nat} {slot slot' : Slot}
    (hi : fleet.slots[i]? = some slot) (hj : fleet.slots[j]? = some slot')
    (hid : slot.vehicle.id = slot'.vehicle.id) : i = j := by
  have hi := (h.index_eq _ i).mpr ⟨slot, hi, hid⟩
  have hj := (h.index_eq _ j).mpr ⟨slot', hj, rfl⟩
  exact Option.some.inj (hi.symm.trans hj)

/-- No two vehicles have the same id. -/
theorem nodup_vehicle_ids (h : fleet.Sound) :
    (fleet.slots.toList.map fun slot ↦ slot.vehicle.id).Nodup := by
  rw [List.Nodup, List.pairwise_iff_getElem]
  intro i j hi hj hij heq
  rw [List.length_map, Array.length_toList] at hi hj
  rw [List.getElem_map, List.getElem_map, Array.getElem_toList, Array.getElem_toList] at heq
  have := h.eq_of_id_eq (Array.getElem?_eq_getElem hi) (Array.getElem?_eq_getElem hj) heq
  omega

theorem find?_eq_some_iff (h : fleet.Sound) {id : UInt64} {slot : Slot} :
    fleet.find? id = some slot ↔ slot ∈ fleet.slots ∧ slot.vehicle.id = id := by
  rw [find?, Option.map_eq_some_iff, Array.mem_iff_getElem?]
  constructor
  · rintro ⟨i, hindex, hslot⟩
    obtain ⟨slot', hi, hid⟩ := (h.index_eq id i).mp hindex
    rw [Array.getD_eq_getD_getElem?, hi, Option.getD_some] at hslot
    exact ⟨⟨i, hslot ▸ hi⟩, hslot ▸ hid⟩
  · rintro ⟨⟨i, hi⟩, hid⟩
    refine ⟨i, (h.index_eq id i).mpr ⟨slot, hi, hid⟩, ?_⟩
    rw [Array.getD_eq_getD_getElem?, hi, Option.getD_some]

theorem proper_of_find? (h : fleet.Sound) {id : UInt64} {slot : Slot}
    (hslot : fleet.find? id = some slot) : slot.Proper :=
  h.proper slot (h.find?_eq_some_iff.mp hslot).1

/-- The place of a vehicle that is found. -/
theorem exists_index (h : fleet.Sound) {id : UInt64} {slot : Slot}
    (hslot : fleet.find? id = some slot) :
    ∃ i, fleet.index[id]? = some i ∧ fleet.slots[i]? = some slot := by
  obtain ⟨hmem, hid⟩ := h.find?_eq_some_iff.mp hslot
  obtain ⟨i, hi⟩ := Array.mem_iff_getElem?.mp hmem
  exact ⟨i, (h.index_eq id i).mpr ⟨slot, hi, hid⟩, hi⟩

/-! ## Setting the free seats of a vehicle -/

/-- A vehicle stands in no bucket but its own. -/
theorem eq_of_mem_row (h : fleet.Sound) {i level level' : Nat} (hi : i ∈ fleet.row level)
    (hi' : i ∈ fleet.row level') : level = level' := by
  obtain ⟨slot, hslot, rfl⟩ := (h.mem_row i level).mp hi
  obtain ⟨slot', hslot', rfl⟩ := (h.mem_row i level').mp hi'
  rw [Option.some.inj (hslot.symm.trans hslot')]

theorem lt_seatLevels (h : fleet.Sound) {slot : Slot} {available : UInt32}
    (hslot : slot ∈ fleet.slots) (hle : available ≤ slot.vehicle.capacity) :
    available.toNat < seatLevels := by
  have := (h.proper slot hslot).toNat_le
  have := UInt32.le_iff_toNat_le.mp hle
  rw [seatLevels]
  omega

end Sound

/-- Setting free seats to what they are changes nothing. -/
theorem setAvailable_self {fleet : Fleet} {i : Nat} {slot : Slot}
    (hi : fleet.slots[i]? = some slot) : fleet.setAvailable i slot.available = fleet := by
  simp [setAvailable, Array.getD_eq_getD_getElem?, hi]

/-- The vehicle leaves one bucket and enters another. -/
theorem setAvailable_eq {fleet : Fleet} {i : Nat} {slot : Slot}
    (hi : fleet.slots[i]? = some slot) {available : UInt32} (hne : available ≠ slot.available) :
    fleet.setAvailable i available =
      let left := (fleet.bucket slot.available.toNat).remove fleet.links i
      let buckets := fleet.buckets.setIfInBounds slot.available.toNat left.1
      let entered := (buckets.getD available.toNat {}).push left.2 i
      { fleet with
        slots := fleet.slots.setIfInBounds i (slot.withAvailable available)
        links := entered.2
        buckets := buckets.setIfInBounds available.toNat entered.1 } := by
  simp [setAvailable, Slot.withAvailable, bucket, Array.getD_eq_getD_getElem?, hi, hne]

theorem index_setAvailable (fleet : Fleet) (i : Nat) (available : UInt32) :
    (fleet.setAvailable i available).index = fleet.index := by
  rw [setAvailable]
  split <;> rfl

theorem totalSeats_setAvailable (fleet : Fleet) (i : Nat) (available : UInt32) :
    (fleet.setAvailable i available).totalSeats = fleet.totalSeats := by
  rw [setAvailable]
  split <;> rfl

/-- Nobody else's slot changes. -/
theorem getElem?_slots_setAvailable {fleet : Fleet} {i : Nat} {slot : Slot}
    (hi : fleet.slots[i]? = some slot) (available : UInt32) (j : Nat) :
    (fleet.setAvailable i available).slots[j]? =
      if i = j then some (slot.withAvailable available) else fleet.slots[j]? := by
  have hlt : i < fleet.slots.size := (Array.getElem?_eq_some_iff.mp hi).1
  by_cases hsame : available = slot.available
  · subst hsame
    rw [setAvailable_self hi]
    split
    next hij => rw [← hij, hi]; rfl
    next => rfl
  · rw [setAvailable_eq hi hsame]
    simp only [Array.getElem?_setIfInBounds, hlt, if_true]

/-- The vehicles are those that were loaded. -/
theorem vehicles_setAvailable {fleet : Fleet} {i : Nat} {slot : Slot}
    (hi : fleet.slots[i]? = some slot) (available : UInt32) :
    (fleet.setAvailable i available).slots.map Slot.vehicle = fleet.slots.map Slot.vehicle := by
  refine Array.ext_getElem? fun j ↦ ?_
  rw [Array.getElem?_map, Array.getElem?_map, getElem?_slots_setAvailable hi]
  split
  next hij => rw [← hij, hi]; rfl
  next => rfl

namespace Sound

variable {fleet : Fleet} {i : Nat} {slot : Slot} {available : UInt32}

/-- The vehicle leaves its bucket and goes to the end of the new one. -/
private theorem members_setAvailable (h : fleet.Sound) (hi : fleet.slots[i]? = some slot)
    (hle : available ≤ slot.vehicle.capacity) (hne : available ≠ slot.available) (level : Nat) :
    ((fleet.setAvailable i available).bucket level).HasMembers
      (fleet.setAvailable i available).links
      (if level = available.toNat then fleet.row level ++ [i] else (fleet.row level).erase i) := by
  have hmem := Array.mem_of_getElem? hi
  have hold : slot.available.toNat < fleet.buckets.size :=
    h.size_buckets ▸ h.lt_seatLevels hmem (h.proper slot hmem).available_le
  have hnew : available.toNat < fleet.buckets.size := h.size_buckets ▸ h.lt_seatLevels hmem hle
  have hne : slot.available.toNat ≠ available.toNat := fun e ↦ hne (UInt32.toNat_inj.mp e.symm)
  -- The vehicle is on the row of its old free seats, and on no other.
  have hrow : i ∈ fleet.row slot.available.toNat := (h.mem_row i _).mpr ⟨slot, hi, rfl⟩
  have hnot {level : Nat} (hlevel : slot.available.toNat ≠ level) : i ∉ fleet.row level :=
    fun hi' ↦ hlevel (h.eq_of_mem_row hrow hi')
  have hapart {level level' j : Nat} (hlevel : level ≠ level') (hj : j ∈ fleet.row level') :
      j ∉ fleet.row level := fun hj' ↦ hlevel (h.eq_of_mem_row hj' hj)
  let left := (fleet.bucket slot.available.toNat).remove fleet.links i
  have hleft : left.1.HasMembers left.2 ((fleet.row slot.available.toNat).erase i) :=
    (h.members _).remove hrow
  -- Removing touches the old row only, and pushing the new one only.
  have hremoved {level : Nat} (hlevel : slot.available.toNat ≠ level) :
      (fleet.bucket level).HasMembers left.2 (fleet.row level) :=
    (h.members level).congr fun j hj ↦
      (h.members slot.available.toNat).chain.getElem?_unlink_of_notMem hrow (hapart hlevel hj)
  have hpushed {j : Nat} (hij : i ≠ j) (hj : j ∉ fleet.row available.toNat) :
      ((fleet.bucket available.toNat).push left.2 i).2[j]? = left.2[j]? :=
    (hremoved hne).chain.getElem?_push hij hj
  rw [setAvailable_eq hi (fun e ↦ hne (congrArg UInt32.toNat e.symm))]
  simp only [getD_setIfInBounds hold, if_neg hne, bucket]
  rw [getD_setIfInBounds (by simpa using hnew), getD_setIfInBounds hold]
  by_cases hlevel : available.toNat = level
  · subst hlevel
    have hlt : i < left.2.size := by
      have hlt : i < fleet.slots.size := (Array.getElem?_eq_some_iff.mp hi).1
      rw [← h.size_links] at hlt
      exact (Chain.size_unlink ..).symm ▸ hlt
    rw [if_pos rfl, if_pos rfl]
    exact (hremoved hne).push (hnot hne) hlt
  · rw [if_neg hlevel, if_neg (Ne.symm hlevel)]
    by_cases hlevel' : slot.available.toNat = level
    · subst hlevel'
      rw [if_pos rfl]
      refine hleft.congr fun j hj ↦ hpushed ?_ ?_
      · rintro rfl
        exact (h.members _).chain.nodup.not_mem_erase hj
      · exact hapart (Ne.symm hne) (List.mem_of_mem_erase hj)
    · rw [if_neg hlevel', List.erase_of_not_mem (hnot hlevel')]
      refine (hremoved hlevel').congr fun j hj ↦ hpushed ?_ (hapart hlevel hj)
      rintro rfl
      exact hnot hlevel' hj

/-- The order in the buckets after a vehicle's free seats have changed. -/
theorem row_setAvailable (h : fleet.Sound) (hi : fleet.slots[i]? = some slot)
    (hle : available ≤ slot.vehicle.capacity) (hne : available ≠ slot.available) (level : Nat) :
    (fleet.setAvailable i available).row level =
      if level = available.toNat then fleet.row level ++ [i] else (fleet.row level).erase i :=
  (h.members_setAvailable hi hle hne level).toList_eq

/-- Places are told apart by what is asked about: the vehicle's own place, and all others. -/
private theorem mem_row_setAvailable (h : fleet.Sound) (hi : fleet.slots[i]? = some slot)
    (hle : available ≤ slot.vehicle.capacity) (hne : available ≠ slot.available) (j level : Nat) :
    j ∈ (fleet.setAvailable i available).row level ↔ ∃ slot : Slot,
      (fleet.setAvailable i available).slots[j]? = some slot ∧ slot.available.toNat = level := by
  have hmem : j ∈ (fleet.setAvailable i available).row level ↔
      if i = j then level = available.toNat else j ∈ fleet.row level := by
    rw [h.row_setAvailable hi hle hne]
    by_cases hij : i = j
    · subst hij
      have := (h.members level).chain.nodup.not_mem_erase (a := i)
      split <;> simp_all
    · rw [if_neg hij]
      split <;> simp [List.mem_erase_of_ne (Ne.symm hij), Ne.symm hij]
  rw [hmem, getElem?_slots_setAvailable hi]
  by_cases hij : i = j
  · simp [hij, Slot.withAvailable, eq_comm]
  · rw [if_neg hij, if_neg hij, h.mem_row]

theorem setAvailable (h : fleet.Sound) (hi : fleet.slots[i]? = some slot)
    (hle : available ≤ slot.vehicle.capacity) : (fleet.setAvailable i available).Sound := by
  by_cases hsame : available = slot.available
  · rwa [hsame, setAvailable_self hi]
  have hslots := getElem?_slots_setAvailable hi available
  have hvehicles := vehicles_setAvailable hi available
  refine ⟨?_, ?_, fun level ↦ ?_, h.mem_row_setAvailable hi hle hsame, fun id j ↦ ?_,
    fun slot' hslot' ↦ ?_, ?_⟩
  · rw [setAvailable_eq hi hsame]
    simp [h.size_links]
  · rw [setAvailable_eq hi hsame]
    simp [h.size_buckets]
  · rw [h.row_setAvailable hi hle hsame]
    exact h.members_setAvailable hi hle hsame level
  · have hid (slots : Array Slot) : (∃ slot : Slot, slots[j]? = some slot ∧ slot.vehicle.id = id) ↔
        ((slots.map Slot.vehicle)[j]?).map Vehicle.id = some id := by
      rw [Array.getElem?_map]
      cases slots[j]? <;> simp
    rw [index_setAvailable, h.index_eq, hid, hid, hvehicles]
  · obtain ⟨j, hj⟩ := Array.mem_iff_getElem?.mp hslot'
    rw [hslots] at hj
    have hproper := h.proper_of_getElem? hi
    split at hj
    next =>
      obtain rfl := Option.some.inj hj
      exact ⟨hproper.id_ne, hproper.isSeatCount_capacity, hle⟩
    next => exact h.proper_of_getElem? hj
  · have hsum (slots : Array Slot) :
        (slots.toList.map fun slot : Slot ↦ slot.vehicle.capacity.toNat).sum =
          ((slots.map Slot.vehicle).toList.map fun vehicle ↦ vehicle.capacity.toNat).sum := by
      simp [Function.comp_def]
    rw [totalSeats_setAvailable, h.totalSeats_eq, hsum, hsum, hvehicles]

end Sound

/-! ## Vehicles by id -/

/-- The fleet with another number of free seats on one vehicle, which goes to the end of its new
bucket. -/
def withAvailable (fleet : Fleet) (id : UInt64) (available : UInt32) : Fleet :=
  match fleet.index[id]? with
  | none => fleet
  | some i => fleet.setAvailable i available

namespace Sound

variable {fleet : Fleet} {id : UInt64} {slot : Slot} {available : UInt32}

theorem withAvailable (h : fleet.Sound) (hslot : fleet.find? id = some slot)
    (hle : available ≤ slot.vehicle.capacity) : (fleet.withAvailable id available).Sound := by
  obtain ⟨i, hindex, hi⟩ := h.exists_index hslot
  rw [Fleet.withAvailable, hindex]
  exact h.setAvailable hi hle

/-- The vehicle is found with its new free seats, and every other one as before. -/
theorem find?_withAvailable (h : fleet.Sound) (hslot : fleet.find? id = some slot)
    (available : UInt32) (other : UInt64) : (fleet.withAvailable id available).find? other =
      if id = other then some (slot.withAvailable available) else fleet.find? other := by
  obtain ⟨i, hindex, hi⟩ := h.exists_index hslot
  have hslots := getElem?_slots_setAvailable hi available
  rw [Fleet.withAvailable, hindex]
  simp only [find?, index_setAvailable, Array.getD_eq_getD_getElem?, hslots]
  by_cases hid : id = other
  · subst hid
    rw [hindex, if_pos rfl, Option.map_some, if_pos rfl, Option.getD_some]
  · rw [if_neg hid]
    refine Option.map_congr fun j hj ↦ ?_
    have hij : i ≠ j := by
      rintro rfl
      obtain ⟨slot', hslot', hid'⟩ := (h.index_eq other i).mp hj
      obtain rfl := Option.some.inj (hi.symm.trans hslot')
      exact hid ((h.find?_eq_some_iff.mp hslot).2.symm.trans hid')
    rw [if_neg hij]

theorem find?_withAvailable_of_ne (h : fleet.Sound) (hslot : fleet.find? id = some slot)
    (available : UInt32) {other : UInt64} (hne : other ≠ id) :
    (fleet.withAvailable id available).find? other = fleet.find? other :=
  (h.find?_withAvailable hslot available other).trans (if_neg hne.symm)

/-- A slot is one of the fleet exactly if it is found under its vehicle's id. -/
theorem mem_slots_iff (h : fleet.Sound) :
    slot ∈ fleet.slots ↔ fleet.find? slot.vehicle.id = some slot := by
  rw [h.find?_eq_some_iff]
  simp

theorem id_eq_of_find? (h : fleet.Sound) (hslot : fleet.find? id = some slot) :
    slot.vehicle.id = id :=
  (h.find?_eq_some_iff.mp hslot).2

end Sound

theorem availableOf_eq {fleet : Fleet} {id : UInt64} {slot : Slot}
    (hslot : fleet.find? id = some slot) : fleet.availableOf id = slot.available := by
  rw [availableOf, hslot]
  rfl

end Fleet

/-! ## Taking and freeing seats -/

/-- How many seats a vehicle has free after getting some back. -/
def Slot.freed (slot : Slot) (size : UInt32) : UInt32 :=
  if slot.vehicle.capacity - slot.available ≤ size then slot.vehicle.capacity
  else slot.available + size

/-- The seats that come back are added up without a wrap, up to the vehicle's capacity. -/
theorem Slot.Proper.toNat_freed {slot : Slot} (h : slot.Proper) (size : UInt32) :
    (slot.freed size).toNat =
      min slot.vehicle.capacity.toNat (slot.available.toNat + size.toNat) := by
  have hle := h.toNat_le
  have hmissing : (slot.vehicle.capacity - slot.available).toNat =
      slot.vehicle.capacity.toNat - slot.available.toNat :=
    UInt32.toNat_sub_of_le _ _ h.available_le
  rw [Slot.freed]
  split
  next hle' =>
    rw [UInt32.le_iff_toNat_le, hmissing] at hle'
    omega
  next hlt =>
    rw [UInt32.le_iff_toNat_le, hmissing] at hlt
    rw [UInt32.toNat_add, Nat.mod_eq_of_lt (by omega)]
    omega

theorem Slot.Proper.freed_le {slot : Slot} (h : slot.Proper) (size : UInt32) :
    slot.freed size ≤ slot.vehicle.capacity := by
  rw [UInt32.le_iff_toNat_le, h.toNat_freed]
  omega

namespace Fleet

theorem release_eq {fleet : Fleet} {id : UInt64} {slot : Slot}
    (hslot : fleet.find? id = some slot) (size : UInt32) :
    fleet.release id size = (slot.freed size, fleet.withAvailable id (slot.freed size)) := by
  rw [find?, Option.map_eq_some_iff] at hslot
  obtain ⟨i, hi, rfl⟩ := hslot
  simp [release, withAvailable, hi, Slot.freed]

theorem release_of_unknown {fleet : Fleet} {id : UInt64} (hslot : fleet.find? id = none)
    (size : UInt32) : fleet.release id size = (0, fleet) := by
  rw [find?, Option.map_eq_none_iff] at hslot
  simp [release, hslot]

theorem tryReserve_eq {fleet : Fleet} {id : UInt64} {slot : Slot}
    (hslot : fleet.find? id = some slot) (size : UInt32) :
    fleet.tryReserve id size =
      if size = 0 ∨ slot.available < size then (false, fleet)
      else (true, fleet.withAvailable id (slot.available - size)) := by
  rw [find?, Option.map_eq_some_iff] at hslot
  obtain ⟨i, hi, rfl⟩ := hslot
  by_cases hzero : size = 0
  · simp [tryReserve, hzero]
  · simp [tryReserve, withAvailable, hi, hzero]

theorem tryReserve_of_unknown {fleet : Fleet} {id : UInt64} (hslot : fleet.find? id = none)
    (size : UInt32) : fleet.tryReserve id size = (false, fleet) := by
  rw [find?, Option.map_eq_none_iff] at hslot
  simp [tryReserve, hslot]

/-- Seats on a certain vehicle are taken if it is loaded and has them; otherwise nothing happens. -/
theorem tryReserve_cases (fleet : Fleet) (id : UInt64) (size : UInt32) :
    (fleet.tryReserve id size = (false, fleet) ∧
      ∀ slot, fleet.find? id = some slot → ¬(1 ≤ size ∧ size ≤ slot.available)) ∨
    ∃ slot, fleet.find? id = some slot ∧ 1 ≤ size ∧ size ≤ slot.available ∧
      fleet.tryReserve id size = (true, fleet.withAvailable id (slot.available - size)) := by
  cases hslot : fleet.find? id with
  | none => exact .inl ⟨tryReserve_of_unknown hslot size, by simp⟩
  | some slot =>
    have hsize : (size = 0 ∨ slot.available < size) ↔ ¬(1 ≤ size ∧ size ≤ slot.available) := by
      rw [not_and_or, UInt32.not_le, UInt32.not_le, UInt32.lt_one_iff]
    rw [tryReserve_eq hslot, if_congr hsize rfl rfl]
    by_cases htaken : 1 ≤ size ∧ size ≤ slot.available
    · exact .inr ⟨slot, rfl, htaken.1, htaken.2, if_neg (not_not_intro htaken)⟩
    · exact .inl ⟨if_pos htaken, by simpa using htaken⟩

namespace Sound

variable {fleet : Fleet} {size : UInt32}

/-- The bucket of a level begins with the vehicle that came first on its row. -/
private theorem front?_bucket (h : fleet.Sound) (level : Nat) :
    (fleet.bucket level).front? = (fleet.row level).head? :=
  (h.members level).front?_eq

/-- The search finds the front of the lowest row that has anybody on it. -/
theorem bestFit?_eq_some (h : fleet.Sound) {i : Nat} (hfit : fleet.bestFit? size = some i) :
    ∃ slot, fleet.slots[i]? = some slot ∧ size ≤ slot.available ∧
      (fleet.row slot.available.toNat).head? = some i ∧
      ∀ other ∈ fleet.slots, size ≤ other.available → slot.available ≤ other.available := by
  rw [bestFit?, List.findSome?_eq_some_iff] at hfit
  obtain ⟨lower, level, higher, hlevels, hfront, hlower⟩ := hfit
  rw [h.front?_bucket] at hfront
  obtain ⟨slot, hslot, rfl⟩ := (h.mem_row i level).mp (List.mem_of_head? hfront)
  have hlevel : slot.available.toNat ∈ List.range' size.toNat (seatLevels - size.toNat) := by
    simp [hlevels]
  rw [List.mem_range'_1] at hlevel
  refine ⟨slot, hslot, UInt32.le_iff_toNat_le.mpr hlevel.1, hfront, fun other hother hle ↦ ?_⟩
  -- Any level below that of the vehicle found has been looked at before, and was empty.
  by_contra hlt
  rw [UInt32.le_iff_toNat_le] at hle hlt
  have hmem : other.available.toNat ∈ lower := by
    have hsorted : (lower ++ slot.available.toNat :: higher).Pairwise (· < ·) :=
      hlevels ▸ List.pairwise_lt_range'
    have hother : other.available.toNat ∈ lower ++ slot.available.toNat :: higher := by
      rw [← hlevels, List.mem_range'_1]
      omega
    rw [List.pairwise_append, List.pairwise_cons] at hsorted
    rw [List.mem_append, List.mem_cons] at hother
    rcases hother with hother | hother | hother
    · exact hother
    · omega
    · have := hsorted.2.1.1 _ hother
      omega
  have hempty := hlower _ hmem
  rw [h.front?_bucket, List.head?_eq_none_iff] at hempty
  obtain ⟨j, hj⟩ := Array.mem_iff_getElem?.mp hother
  have := (h.mem_row j _).mpr ⟨other, hj, rfl⟩
  simp [hempty] at this

theorem bestFit?_eq_none (h : fleet.Sound) (hfit : fleet.bestFit? size = none) :
    ∀ slot ∈ fleet.slots, slot.available < size := by
  intro slot hslot
  rw [bestFit?, List.findSome?_eq_none_iff] at hfit
  by_contra hlt
  rw [UInt32.lt_iff_toNat_lt] at hlt
  have hlevel := h.lt_seatLevels hslot (h.proper slot hslot).available_le
  have hempty := hfit slot.available.toNat (by rw [List.mem_range'_1]; omega)
  rw [h.front?_bucket, List.head?_eq_none_iff] at hempty
  obtain ⟨i, hi⟩ := Array.mem_iff_getElem?.mp hslot
  have := (h.mem_row i _).mpr ⟨slot, hi, rfl⟩
  simp [hempty] at this

/-- A search either finds nobody, because nobody has enough seats free, or takes the seats on the
vehicle whose free seats exceed the size by least, and among these on the first one of its row. -/
theorem reserve_cases (h : fleet.Sound) (hsize : isSeatCount size = true) :
    (fleet.reserve size = (none, fleet) ∧ ∀ slot ∈ fleet.slots, slot.available < size) ∨
    ∃ slot, fleet.find? slot.vehicle.id = some slot ∧ size ≤ slot.available ∧
      (∀ other ∈ fleet.slots, size ≤ other.available → slot.available ≤ other.available) ∧
      fleet.reserve size = (some slot.vehicle.id,
        fleet.withAvailable slot.vehicle.id (slot.available - size)) := by
  cases hfit : fleet.bestFit? size with
  | none => exact .inl ⟨by simp [reserve, hsize, hfit], h.bestFit?_eq_none hfit⟩
  | some i =>
    obtain ⟨slot, hi, hle, -, hleast⟩ := h.bestFit?_eq_some hfit
    have hslot : fleet.find? slot.vehicle.id = some slot :=
      h.mem_slots_iff.mp (Array.mem_of_getElem? hi)
    have hindex : fleet.index[slot.vehicle.id]? = some i := (h.index_eq _ i).mpr ⟨slot, hi, rfl⟩
    refine .inr ⟨slot, hslot, hle, hleast, ?_⟩
    simp [reserve, hsize, hfit, Fleet.withAvailable, hindex, Array.getD_eq_getD_getElem?, hi]

end Sound

/-- A size no party has is not searched for. -/
theorem reserve_of_not_isSeatCount {fleet : Fleet} {size : UInt32}
    (hsize : isSeatCount size = false) : fleet.reserve size = (none, fleet) := by
  simp [reserve, hsize]

/-! ## Loading -/

/-- A vehicle is passed over or joins behind all others. -/
private theorem load_eq (fleet : Fleet) (vehicle : Vehicle) :
    fleet.load vehicle =
      if vehicle.id ≠ noVehicle ∧ isSeatCount vehicle.capacity ∧
          fleet.index.contains vehicle.id = false then
        let entered := (fleet.bucket vehicle.capacity.toNat).push (fleet.links.push {})
          fleet.slots.size
        { slots := fleet.slots.push { vehicle, available := vehicle.capacity }
          links := entered.2
          index := fleet.index.insert vehicle.id fleet.slots.size
          buckets := fleet.buckets.setIfInBounds vehicle.capacity.toNat entered.1
          totalSeats := fleet.totalSeats + vehicle.capacity.toNat }
      else fleet := by
  by_cases hid : vehicle.id = noVehicle <;>
    by_cases hcapacity : isSeatCount vehicle.capacity = true <;>
    by_cases hold : fleet.index.contains vehicle.id = true <;>
    simp [load, bucket, hid, hcapacity, hold]

theorem slots_load (fleet : Fleet) (vehicle : Vehicle) :
    (fleet.load vehicle).slots =
      if vehicle.id ≠ noVehicle ∧ isSeatCount vehicle.capacity ∧
          fleet.index.contains vehicle.id = false then
        fleet.slots.push { vehicle, available := vehicle.capacity }
      else fleet.slots := by
  rw [load_eq]
  split <;> rfl

/-- Whoever is passed over leaves the fleet as it is. -/
theorem load_of_passedOver {fleet : Fleet} {vehicle : Vehicle}
    (h : ¬(vehicle.id ≠ noVehicle ∧ isSeatCount vehicle.capacity ∧
      fleet.index.contains vehicle.id = false)) : fleet.load vehicle = fleet := by
  rw [load_eq, if_neg h]

theorem contains_index_load {fleet : Fleet} {vehicle : Vehicle}
    (h : vehicle.id ≠ noVehicle ∧ isSeatCount vehicle.capacity ∧
      fleet.index.contains vehicle.id = false) (id : UInt64) :
    (fleet.load vehicle).index.contains id = (vehicle.id == id || fleet.index.contains id) := by
  rw [load_eq, if_pos h]
  exact Std.HashMap.contains_insert

/-- All seats of the vehicles are free. -/
def AllFree (fleet : Fleet) : Prop :=
  ∀ slot ∈ fleet.slots, slot.available = slot.vehicle.capacity

@[simp] private theorem bucket_empty (level : Nat) : bucket {} level = {} := by
  rw [bucket, Array.getD_eq_getD_getElem?, Array.getElem?_replicate]
  split <;> rfl

@[simp] theorem row_empty (level : Nat) : row {} level = [] := by
  rw [row, bucket_empty]
  exact (Bucket.hasMembers_nil _).toList_eq

theorem sound_empty : ({} : Fleet).Sound := by
  refine ⟨rfl, rfl, fun level ↦ ?_, fun i level ↦ ?_, fun id i ↦ ?_, ?_, rfl⟩
  · simp
  · simp
  · simp
  · simp

namespace Sound

variable {fleet : Fleet} {vehicle : Vehicle}

/-- The fleet that a vehicle has joined. -/
private def Joined (fleet : Fleet) (vehicle : Vehicle) (fleet' : Fleet) : Prop :=
  let entered := (fleet.bucket vehicle.capacity.toNat).push (fleet.links.push {}) fleet.slots.size
  fleet' =
    { slots := fleet.slots.push { vehicle, available := vehicle.capacity }
      links := entered.2
      index := fleet.index.insert vehicle.id fleet.slots.size
      buckets := fleet.buckets.setIfInBounds vehicle.capacity.toNat entered.1
      totalSeats := fleet.totalSeats + vehicle.capacity.toNat }

/-- A vehicle that joins stands behind all others in the bucket of its capacity. -/
private theorem members_joined (h : fleet.Sound) (hcapacity : isSeatCount vehicle.capacity = true)
    {fleet' : Fleet} (hjoined : Joined fleet vehicle fleet') (level : Nat) :
    (fleet'.bucket level).HasMembers fleet'.links
      (if level = vehicle.capacity.toNat then fleet.row level ++ [fleet.slots.size]
        else fleet.row level) := by
  have hcapacity := isSeatCount_iff.mp hcapacity
  have hlevel : vehicle.capacity.toNat < fleet.buckets.size := by
    rw [h.size_buckets, seatLevels]
    omega
  have hlt {level j : Nat} (hj : j ∈ fleet.row level) : j < fleet.slots.size :=
    h.size_links ▸ (h.members level).chain.lt_size hj
  have hnot (level : Nat) : fleet.slots.size ∉ fleet.row level := fun hmem ↦
    Nat.lt_irrefl _ (hlt hmem)
  have hlonger (level : Nat) :
      (fleet.bucket level).HasMembers (fleet.links.push {}) (fleet.row level) :=
    (h.members level).congr fun j hj ↦ by
      rw [Array.getElem?_push, if_neg (h.size_links ▸ Nat.ne_of_lt (hlt hj))]
  subst hjoined
  simp only [bucket]
  rw [getD_setIfInBounds hlevel]
  by_cases heq : vehicle.capacity.toNat = level
  · subst heq
    rw [if_pos rfl, if_pos rfl]
    exact (hlonger _).push (hnot _) (by simp [h.size_links])
  · rw [if_neg heq, if_neg (Ne.symm heq)]
    refine (hlonger level).congr fun j hj ↦ ?_
    refine (hlonger vehicle.capacity.toNat).chain.getElem?_push (Nat.ne_of_gt (hlt hj)) fun hj' ↦ ?_
    exact heq (h.eq_of_mem_row hj' hj)

private theorem joined (h : fleet.Sound) (hid : vehicle.id ≠ noVehicle)
    (hcapacity : isSeatCount vehicle.capacity = true)
    (hnew : fleet.index.contains vehicle.id = false) {fleet' : Fleet}
    (hjoined : Joined fleet vehicle fleet') : fleet'.Sound := by
  have hmembers := h.members_joined hcapacity hjoined
  have hrow (level : Nat) := (hmembers level).toList_eq
  subst hjoined
  refine ⟨?_, ?_, fun level ↦ ?_, fun j level ↦ ?_, fun id j ↦ ?_, fun slot hslot ↦ ?_, ?_⟩
  · simp [h.size_links]
  · simp [h.size_buckets]
  · rw [row, hrow]
    exact hmembers level
  · rw [row, hrow, Array.getElem?_push]
    have hold : fleet.slots.size ∉ fleet.row level := fun hmem ↦ by
      have := (h.members level).chain.lt_size hmem
      exact Nat.lt_irrefl _ (h.size_links ▸ this)
    by_cases hj : j = fleet.slots.size
    · rw [hj, if_pos rfl]
      split
      next hlevel => simp [hlevel]
      next hlevel => simp [hold, Ne.symm hlevel]
    · rw [if_neg hj, ← h.mem_row]
      split <;> simp [hj]
  · rw [Std.HashMap.getElem?_insert, Array.getElem?_push]
    have hlt {slot : Slot} (hslot : fleet.slots[j]? = some slot) : j ≠ fleet.slots.size :=
      Nat.ne_of_lt (Array.getElem?_eq_some_iff.mp hslot).1
    by_cases heq : vehicle.id = id
    · subst heq
      rw [if_pos (by simp), Option.some.injEq]
      constructor
      · rintro rfl
        exact ⟨_, if_pos rfl, rfl⟩
      · rintro ⟨slot, hslot, hid⟩
        by_contra hne
        rw [if_neg (Ne.symm hne)] at hslot
        have hindex := (h.index_eq _ j).mpr ⟨slot, hslot, hid⟩
        rw [← Std.HashMap.isSome_getElem?_eq_contains, hindex] at hnew
        simp at hnew
    · rw [if_neg (by simpa using heq), h.index_eq]
      constructor
      · rintro ⟨slot, hslot, hid⟩
        exact ⟨slot, by rwa [if_neg (hlt hslot)], hid⟩
      · rintro ⟨slot, hslot, hid⟩
        split at hslot
        next =>
          obtain rfl := Option.some.inj hslot
          exact absurd hid heq
        next => exact ⟨slot, hslot, hid⟩
  · rw [Array.mem_push] at hslot
    rcases hslot with hslot | rfl
    · exact h.proper slot hslot
    · exact ⟨hid, hcapacity, UInt32.le_refl _⟩
  · simp [h.totalSeats_eq]

theorem load (h : fleet.Sound) (vehicle : Vehicle) : (fleet.load vehicle).Sound := by
  rw [load_eq]
  split
  next hloads => exact h.joined hloads.1 hloads.2.1 hloads.2.2 rfl
  next => exact h

/-- Whoever is loaded goes to the end of the row of its capacity. -/
theorem row_load (h : fleet.Sound) (vehicle : Vehicle) (level : Nat) :
    (fleet.load vehicle).row level = fleet.row level ∨
      (fleet.load vehicle).row level = fleet.row level ++ [fleet.slots.size] := by
  rw [load_eq]
  split
  next hloads =>
    have hrow := (h.members_joined hloads.2.1 rfl level).toList_eq
    rw [row, hrow]
    split
    next => exact .inr rfl
    next => exact .inl rfl
  next => exact .inl rfl

end Sound

theorem AllFree.load {fleet : Fleet} (h : fleet.AllFree) (vehicle : Vehicle) :
    (fleet.load vehicle).AllFree := by
  rw [load_eq]
  split
  next =>
    intro slot hslot
    rcases Array.mem_push.mp hslot with hslot | rfl
    · exact h slot hslot
    · rfl
  next => exact h

/-- Vehicles are loaded one by one into a fleet that is sound already. -/
private theorem sound_foldl_load {fleet : Fleet} (h : fleet.Sound ∧ fleet.AllFree)
    (vehicles : List Vehicle) :
    (vehicles.foldl load fleet).Sound ∧ (vehicles.foldl load fleet).AllFree := by
  induction vehicles generalizing fleet with
  | nil => exact h
  | cons vehicle vehicles ih => exact ih ⟨h.1.load vehicle, h.2.load vehicle⟩

theorem sound_ofVehicles (vehicles : List Vehicle) : (ofVehicles vehicles).Sound :=
  (sound_foldl_load ⟨sound_empty, fun slot hslot ↦ by simp at hslot⟩ vehicles).1

theorem allFree_ofVehicles (vehicles : List Vehicle) : (ofVehicles vehicles).AllFree :=
  (sound_foldl_load ⟨sound_empty, fun slot hslot ↦ by simp at hslot⟩ vehicles).2

end Fleet

end RideShare
