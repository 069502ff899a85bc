import Mathlib.Data.List.Nodup
import RideShare.Proofs.Register

/-!
# The grid of vehicles

The buckets of a fleet are a grid with one row for every number of free seats, and every vehicle
stands on it exactly once: on the row of its free seats, linked to its neighbours in both
directions. So the rows, one after the other, hold every place of the fleet once, and what the
buckets count adds up to the number of vehicles. `Fleet.OnGrid` puts this together with what is
known of the vehicles themselves, which are those of the last list loaded, whatever was done to
their seats.

The grid is what keeps the arithmetic within its words. Free seats are taken away from and added to
as words of 32 bits, buckets are looked up by the result, and the sizes come from outside. To see
that nothing ever wraps and that no bucket is missing, the operations are written down once more so
that each difference, sum and lookup may fail, and none of them does: `Fleet.carryOut?` succeeds,
with the answer and the fleet of `Fleet.apply`.

## Main statements

* `Fleet.Sound.onGrid`: a sound fleet stands on its grid;
* `Fleet.Sound.carryOut?_eq`: with every step checked, an operation comes to the same;
* `Fleet.stands_on_grid`: both, at any point of any run.
-/

namespace RideShare.Fleet

/-! ## Standing on the grid -/

/-- The given vehicles are those of the fleet, and each stands on the row of its free seats. -/
structure OnGrid (fleet : Fleet) (vehicles : List Vehicle) : Prop where
  /-- The vehicles are listed in the order of loading, with the ids and seats they came with. -/
  vehicles_eq : (fleet.slots.map Slot.vehicle).toList = vehicles
  /-- No two have the same id. -/
  nodup_ids : (vehicles.map Vehicle.id).Nodup
  /-- They have one to six seats, and no more of them are free. -/
  proper : ∀ slot ∈ fleet.slots, slot.Proper
  /-- The vehicles of a row are linked to each other, in both directions, and counted. -/
  members : ∀ level, (fleet.bucket level).HasMembers fleet.links (fleet.row level)
  /-- A vehicle stands once on the row of its free seats, and on no other. -/
  count_row : ∀ i slot, fleet.slots[i]? = some slot → ∀ level,
    (fleet.row level).count i = if slot.available.toNat = level then 1 else 0
  /-- The rows hold every vehicle, and nothing else. -/
  perm : ((List.range seatLevels).flatMap fleet.row).Perm (List.range fleet.size)
  /-- What the buckets count adds up to the number of vehicles. -/
  sum_count : ((List.range seatLevels).map fun level ↦ (fleet.bucket level).count).sum = fleet.size
  /-- There is a row for each number of free seats from none to six, and no other. -/
  size_buckets : fleet.buckets.size = seatLevels
  /-- Nobody has more seats free. -/
  bucketSize_eq_zero : ∀ available, maxSeats < available → fleet.bucketSize available = 0
  /-- All seats are counted. -/
  totalSeats_eq : fleet.totalSeats = (vehicles.map fun vehicle ↦ vehicle.capacity.toNat).sum
  /-- The index finds the vehicles by their ids, and finds nothing else. -/
  find?_eq_some_iff : ∀ id slot,
    fleet.find? id = some slot ↔ slot ∈ fleet.slots ∧ slot.vehicle.id = id

namespace Sound

variable {fleet : Fleet}

/-- There is a bucket for every number of free seats. -/
theorem getElem?_buckets (h : fleet.Sound) {level : Nat} (hlevel : level < seatLevels) :
    fleet.buckets[level]? = some (fleet.bucket level) := by
  rw [bucket, Array.getD_eq_getD_getElem?, Array.getElem?_eq_getElem (h.size_buckets ▸ hlevel),
    Option.getD_some]

theorem available_lt_seatLevels (h : fleet.Sound) {i : Nat} {slot : Slot}
    (hi : fleet.slots[i]? = some slot) : slot.available.toNat < seatLevels :=
  h.lt_seatLevels (Array.mem_of_getElem? hi) (h.proper_of_getElem? hi).available_le

/-- There is nobody on a row that does not belong to the grid. -/
theorem row_eq_nil (h : fleet.Sound) {level : Nat} (hlevel : seatLevels ≤ level) :
    fleet.row level = [] := by
  refine List.eq_nil_iff_forall_not_mem.mpr fun i hi ↦ ?_
  obtain ⟨slot, hslot, rfl⟩ := (h.mem_row i level).mp hi
  exact Nat.not_lt.mpr hlevel (h.available_lt_seatLevels hslot)

/-- The rows have no place in common, and together hold them all. -/
theorem perm_flatMap_row (h : fleet.Sound) :
    ((List.range seatLevels).flatMap fleet.row).Perm (List.range fleet.size) := by
  have hnodup : ((List.range seatLevels).flatMap fleet.row).Nodup := by
    refine List.nodup_flatMap.mpr ⟨fun level _ ↦ (h.members level).chain.nodup, ?_⟩
    refine List.nodup_range.imp fun {level level'} hne i hi hi' ↦ hne ?_
    exact h.eq_of_mem_row hi hi'
  refine (List.perm_ext_iff_of_nodup hnodup List.nodup_range).mpr fun i ↦ ?_
  rw [List.mem_flatMap, List.mem_range]
  constructor
  · rintro ⟨level, -, hi⟩
    obtain ⟨slot, hslot, -⟩ := (h.mem_row i level).mp hi
    exact (Array.getElem?_eq_some_iff.mp hslot).1
  · intro hi
    have hslot : fleet.slots[i]? = some fleet.slots[i] := Array.getElem?_eq_getElem hi
    exact ⟨_, List.mem_range.mpr (h.available_lt_seatLevels hslot),
      (h.mem_row i _).mpr ⟨_, hslot, rfl⟩⟩

theorem onGrid (h : fleet.Sound) : fleet.OnGrid (fleet.slots.map Slot.vehicle).toList where
  vehicles_eq := rfl
  nodup_ids := by
    rw [Array.toList_map, List.map_map]
    exact h.nodup_vehicle_ids
  proper := h.proper
  members := h.members
  count_row i slot hi level := by
    rw [(h.members level).chain.nodup.count]
    refine if_congr ((h.mem_row i level).trans ?_) rfl rfl
    simp [hi]
  perm := h.perm_flatMap_row
  sum_count := by
    have hlength := h.perm_flatMap_row.length_eq
    rw [List.length_flatMap, List.length_range] at hlength
    rw [← hlength]
    exact congrArg List.sum (List.map_congr_left fun level _ ↦ (h.members level).count_eq)
  size_buckets := h.size_buckets
  bucketSize_eq_zero available hlt := by
    have hlevel : seatLevels ≤ available.toNat := UInt32.lt_iff_toNat_lt.mp hlt
    rw [bucketSize, (h.members _).count_eq, h.row_eq_nil hlevel, List.length_nil]
  totalSeats_eq := by
    rw [h.totalSeats_eq, Array.toList_map, List.map_map]
    rfl
  find?_eq_some_iff _ _ := h.find?_eq_some_iff

end Sound

/-! ## Every step checked -/

/-- The difference of two words, if it is not below zero. -/
def minus? (a b : UInt32) : Option UInt32 := if b ≤ a then some (a - b) else none

/-- The sum of two words, if it is a word. -/
def plus? (a b : UInt32) : Option UInt32 :=
  if a.toNat + b.toNat < UInt32.size then some (a + b) else none

/-- Load one more vehicle, if there is a bucket for it. -/
def load? (fleet : Fleet) (vehicle : Vehicle) : Option Fleet :=
  if vehicle.id == noVehicle || !isSeatCount vehicle.capacity
      || fleet.index.contains vehicle.id then
    some fleet
  else do
    let i := fleet.slots.size
    let bucket ← fleet.buckets[vehicle.capacity.toNat]?
    let entered := bucket.push (fleet.links.push {}) i
    some
      { slots := fleet.slots.push { vehicle, available := vehicle.capacity }
        links := entered.2
        index := fleet.index.insert vehicle.id i
        buckets := fleet.buckets.setIfInBounds vehicle.capacity.toNat entered.1
        totalSeats := fleet.totalSeats + vehicle.capacity.toNat }

/-- Set the free seats of the vehicle at `i`, if it is there and so are the bucket it leaves and the
one it enters. -/
def setAvailable? (fleet : Fleet) (i : Nat) (available : UInt32) : Option Fleet := do
  let slot ← fleet.slots[i]?
  if available = slot.available then
    some fleet
  else
    let old ← fleet.buckets[slot.available.toNat]?
    let left := old.remove fleet.links i
    let buckets := fleet.buckets.setIfInBounds slot.available.toNat left.1
    let new ← buckets[available.toNat]?
    let entered := new.push left.2 i
    some
      { fleet with
        slots := fleet.slots.setIfInBounds i (slot.withAvailable available)
        links := entered.2
        buckets := buckets.setIfInBounds available.toNat entered.1 }

/-- The first vehicle of the first of the given buckets that is not empty, if all those looked at
are there. -/
def frontOf? (fleet : Fleet) : List Nat → Option (Option Nat)
  | [] => some none
  | level :: rest => do
    let bucket ← fleet.buckets[level]?
    match bucket.front? with
    | some i => some (some i)
    | none => fleet.frontOf? rest

/-- Take `size` seats on the vehicle that fits best. -/
def reserve? (fleet : Fleet) (size : UInt32) : Option (Option UInt64 × Fleet) :=
  if isSeatCount size then do
    match ← fleet.frontOf? (List.range' size.toNat (seatLevels - size.toNat)) with
    | none => some (none, fleet)
    | some i =>
      let slot ← fleet.slots[i]?
      let available ← minus? slot.available size
      let fleet ← fleet.setAvailable? i available
      some (some slot.vehicle.id, fleet)
  else
    some (none, fleet)

/-- Give `size` seats back to a vehicle. -/
def release? (fleet : Fleet) (id : UInt64) (size : UInt32) : Option (UInt32 × Fleet) :=
  match fleet.index[id]? with
  | none => some (0, fleet)
  | some i => do
    let slot ← fleet.slots[i]?
    let missing ← minus? slot.vehicle.capacity slot.available
    let available ←
      if missing ≤ size then some slot.vehicle.capacity else plus? slot.available size
    let fleet ← fleet.setAvailable? i available
    some (available, fleet)

/-- Take `size` seats on the given vehicle. -/
def tryReserve? (fleet : Fleet) (id : UInt64) (size : UInt32) : Option (Bool × Fleet) :=
  if size == 0 then
    some (false, fleet)
  else
    match fleet.index[id]? with
    | none => some (false, fleet)
    | some i => do
      let slot ← fleet.slots[i]?
      if slot.available < size then
        some (false, fleet)
      else
        let available ← minus? slot.available size
        let fleet ← fleet.setAvailable? i available
        some (true, fleet)

/-- Carry out an operation with every step checked. -/
def carryOut? (fleet : Fleet) : Operation → Option (Answer × Fleet)
  | .reset vehicles => (vehicles.foldlM load? {}).map fun fleet ↦ (.loaded, fleet)
  | .reserve size => (fleet.reserve? size).map fun (id?, fleet) ↦ (.vehicle id?, fleet)
  | .release id size => (fleet.release? id size).map fun (free, fleet) ↦ (.free free, fleet)
  | .tryReserve id size =>
    (fleet.tryReserve? id size).map fun (granted, fleet) ↦ (.taken granted, fleet)

theorem minus?_of_le {a b : UInt32} (h : b ≤ a) : minus? a b = some (a - b) := if_pos h

/-- Seats that come back fit a word as long as more are missing. -/
theorem plus?_of_lt_missing {slot : Slot} (h : slot.Proper) {size : UInt32}
    (hlt : ¬ slot.vehicle.capacity - slot.available ≤ size) :
    plus? slot.available size = some (slot.available + size) := by
  have hmissing := UInt32.toNat_sub_of_le _ _ h.available_le
  have hle := h.toNat_le
  rw [UInt32.le_iff_toNat_le, hmissing] at hlt
  refine if_pos ?_
  rw [UInt32.size]
  omega

theorem getD_slots {fleet : Fleet} {i : Nat} {slot : Slot} (hi : fleet.slots[i]? = some slot) :
    fleet.slots.getD i default = slot := by
  rw [Array.getD_eq_getD_getElem?, hi, Option.getD_some]

namespace Sound

variable {fleet : Fleet} {i : Nat} {slot : Slot} {available size : UInt32}

theorem load?_eq (h : fleet.Sound) (vehicle : Vehicle) :
    fleet.load? vehicle = some (fleet.load vehicle) := by
  rw [load?, Fleet.load]
  split
  next => rfl
  next hloads =>
    simp only [Bool.or_eq_true, Bool.not_eq_true', not_or, Bool.not_eq_false] at hloads
    have hcapacity := isSeatCount_iff.mp hloads.1.2
    have hlevel : vehicle.capacity.toNat < seatLevels := by
      rw [seatLevels]
      omega
    rw [h.getElem?_buckets hlevel]
    rfl

theorem setAvailable?_eq (h : fleet.Sound) (hi : fleet.slots[i]? = some slot)
    (hle : available ≤ slot.vehicle.capacity) :
    fleet.setAvailable? i available = some (fleet.setAvailable i available) := by
  rw [setAvailable?, hi]
  simp only [Option.bind_eq_bind, Option.bind_some]
  split
  next hsame => rw [hsame, setAvailable_self hi]
  next hne =>
    have hnew : available.toNat < fleet.buckets.size :=
      h.size_buckets ▸ h.lt_seatLevels (Array.mem_of_getElem? hi) hle
    rw [setAvailable_eq hi hne, h.getElem?_buckets (h.available_lt_seatLevels hi), Option.bind_some,
      Array.getElem?_eq_getElem (by rwa [Array.size_setIfInBounds]), Option.bind_some]
    simp only [Array.getD_eq_getD_getElem?]
    rw [Array.getElem?_eq_getElem (by rwa [Array.size_setIfInBounds]), Option.getD_some]

/-- The rows a search looks at belong to the grid. -/
theorem frontOf?_eq (h : fleet.Sound) {levels : List Nat}
    (hlevels : ∀ level ∈ levels, level < seatLevels) :
    fleet.frontOf? levels = some (levels.findSome? fun level ↦ (fleet.bucket level).front?) := by
  induction levels with
  | nil => rfl
  | cons level rest ih =>
    rw [List.forall_mem_cons] at hlevels
    rw [frontOf?, h.getElem?_buckets hlevels.1, List.findSome?_cons]
    simp only [Option.bind_eq_bind, Option.bind_some]
    split
    next hfront => rw [hfront]
    next hfront => rw [hfront, ih hlevels.2]

theorem reserve?_eq (h : fleet.Sound) (size : UInt32) :
    fleet.reserve? size = some (fleet.reserve size) := by
  rw [reserve?, Fleet.reserve]
  split
  next =>
    have hlevels : ∀ level ∈ List.range' size.toNat (seatLevels - size.toNat),
        level < seatLevels := by
      intro level hlevel
      rw [List.mem_range'_1] at hlevel
      omega
    rw [h.frontOf?_eq hlevels, ← bestFit?]
    cases hfit : fleet.bestFit? size with
    | none => rfl
    | some i =>
      obtain ⟨slot, hi, hle, -⟩ := h.bestFit?_eq_some hfit
      simp [hi, getD_slots hi, minus?_of_le hle,
        h.setAvailable?_eq hi ((h.proper_of_getElem? hi).sub_le hle)]
  next => rfl

theorem release?_eq (h : fleet.Sound) (id : UInt64) (size : UInt32) :
    fleet.release? id size = some (fleet.release id size) := by
  rw [release?, Fleet.release]
  cases hindex : fleet.index[id]? with
  | none => rfl
  | some i =>
    obtain ⟨slot, hi, -⟩ := (h.index_eq id i).mp hindex
    have hproper := h.proper_of_getElem? hi
    simp only [Option.bind_eq_bind, Option.bind_some, hi, getD_slots hi,
      minus?_of_le hproper.available_le]
    split
    next => simp only [h.setAvailable?_eq hi (UInt32.le_refl _), Option.bind_some]
    next hlt =>
      -- Seats are added only while more are missing, so that the sum stays below the capacity.
      have hless : slot.available + size ≤ slot.vehicle.capacity := by
        have hle := hproper.freed_le size
        rwa [Slot.freed, if_neg hlt] at hle
      simp only [plus?_of_lt_missing hproper hlt, Option.bind_some, h.setAvailable?_eq hi hless]

theorem tryReserve?_eq (h : fleet.Sound) (id : UInt64) (size : UInt32) :
    fleet.tryReserve? id size = some (fleet.tryReserve id size) := by
  rw [tryReserve?, Fleet.tryReserve]
  split
  next => rfl
  next =>
    cases hindex : fleet.index[id]? with
    | none => rfl
    | some i =>
      obtain ⟨slot, hi, -⟩ := (h.index_eq id i).mp hindex
      simp only [Option.bind_eq_bind, Option.bind_some, hi, getD_slots hi]
      split
      next => rfl
      next hle =>
        have hle := UInt32.not_lt.mp hle
        simp only [minus?_of_le hle, Option.bind_some,
          h.setAvailable?_eq hi ((h.proper_of_getElem? hi).sub_le hle)]

theorem foldlM_load?_eq (h : fleet.Sound) (vehicles : List Vehicle) :
    vehicles.foldlM load? fleet = some (vehicles.foldl Fleet.load fleet) := by
  induction vehicles generalizing fleet with
  | nil => rfl
  | cons vehicle rest ih =>
    rw [List.foldlM_cons, h.load?_eq]
    exact ih (h.load vehicle)

/-- No step of an operation fails. -/
theorem carryOut?_eq (h : fleet.Sound) (operation : Operation) :
    fleet.carryOut? operation = some (fleet.apply operation) := by
  cases operation with
  | reset vehicles =>
    rw [carryOut?, sound_empty.foldlM_load?_eq]
    rfl
  | reserve size => rw [carryOut?, h.reserve?_eq]; rfl
  | release id size => rw [carryOut?, h.release?_eq]; rfl
  | tryReserve id size => rw [carryOut?, h.tryReserve?_eq]; rfl

end Sound

/-! ## Runs -/

/-- The vehicles an operation loads. -/
def Operation.vehicles? : Operation → Option (List Vehicle)
  | .reset vehicles => some vehicles
  | _ => none

theorem Operation.eq_reset {operation : Operation} {vehicles : List Vehicle}
    (h : operation.vehicles? = some vehicles) : operation = .reset vehicles := by
  cases operation with
  | reset vehicles' => exact congrArg _ (Option.some.inj h)
  | reserve size => cases h
  | release id size => cases h
  | tryReserve id size => cases h

/-- The last list of vehicles loaded; none before the first one. -/
def lastLoad (operations : List Operation) : List Vehicle :=
  lastGiven Operation.vehicles? [] operations

variable {fleet : Fleet} {operation : Operation}

/-- An operation that loads no vehicles sets the free seats of one, or changes nothing. -/
theorem Sound.apply_cases (h : fleet.Sound) (hkeeps : operation.vehicles? = none) :
    (fleet.apply operation).2 = fleet ∨ ∃ i slot available, fleet.slots[i]? = some slot ∧
      (fleet.apply operation).2 = fleet.setAvailable i available := by
  cases operation with
  | reset vehicles => cases hkeeps
  | reserve size =>
    rw [apply, Fleet.reserve]
    split
    next =>
      cases hfit : fleet.bestFit? size with
      | none => exact .inl rfl
      | some i =>
        obtain ⟨slot, hi, -⟩ := h.bestFit?_eq_some hfit
        exact .inr ⟨i, slot, _, hi, rfl⟩
    next => exact .inl rfl
  | release id size =>
    rw [apply, Fleet.release]
    cases hindex : fleet.index[id]? with
    | none => exact .inl rfl
    | some i =>
      obtain ⟨slot, hi, -⟩ := (h.index_eq id i).mp hindex
      exact .inr ⟨i, slot, _, hi, rfl⟩
  | tryReserve id size =>
    rw [apply, Fleet.tryReserve]
    split
    next => exact .inl rfl
    next =>
      cases hindex : fleet.index[id]? with
      | none => exact .inl rfl
      | some i =>
        obtain ⟨slot, hi, -⟩ := (h.index_eq id i).mp hindex
        dsimp only
        split
        next => exact .inl rfl
        next => exact .inr ⟨i, slot, _, hi, rfl⟩

/-- It keeps the vehicles, in their order. -/
theorem Sound.vehicles_apply (h : fleet.Sound) (hkeeps : operation.vehicles? = none) :
    (fleet.apply operation).2.slots.map Slot.vehicle = fleet.slots.map Slot.vehicle := by
  obtain hsame | ⟨i, slot, available, hi, hset⟩ := h.apply_cases hkeeps
  · rw [hsame]
  · rw [hset, vehicles_setAvailable hi]

/-- The vehicles are those of the last list that can be loaded. -/
theorem vehicles_run (operations : List Operation) :
    ((run operations).slots.map Slot.vehicle).toList =
      Register.loadable (lastLoad operations) := by
  induction operations using List.reverseRecOn with
  | nil => simp [run, lastLoad, Register.loadable]
  | append_singleton operations operation ih =>
    have hsound := (tracks_run operations).sound
    rw [run_concat, lastLoad, lastGiven_concat, ← lastLoad]
    cases hvehicles : operation.vehicles? with
    | none => rw [hsound.vehicles_apply hvehicles, ih, Option.getD_none]
    | some vehicles =>
      rw [operation.eq_reset hvehicles, Option.getD_some, Array.toList_map, apply,
        slots_ofVehicles, List.map_map]
      exact List.map_id _

/-- At any point of any run the vehicles loaded last stand on the grid, and whatever is done next
comes to the same with every step checked. -/
theorem stands_on_grid (operations : List Operation) :
    (run operations).OnGrid (Register.loadable (lastLoad operations)) ∧
      ∀ operation, (run operations).carryOut? operation =
        some ((run operations).apply operation) := by
  have hsound := (tracks_run operations).sound
  rw [← vehicles_run]
  exact ⟨hsound.onGrid, hsound.carryOut?_eq⟩

end RideShare.Fleet
