import Mathlib.Data.List.Induction
import RideShare.Proofs.Fleet

/-!
# The register of a fleet

A fleet could be kept on paper: one line for every vehicle, in the order of loading, with the number
of its free seats and the time at which that number last changed. To find a vehicle one reads all
lines, and takes the first of those that fit best and, among these, have been as they are for
longest. `Register` does this, without buckets, links and index.

The fleet keeps no times. It keeps, for each number of free seats, a row of vehicles, and what
connects the two is that every row stands in the order of the times, with vehicles that have not
changed since they were loaded in the order of loading. A vehicle whose free seats change has the
latest time of all, and goes to the end of a row; every other operation leaves both as they are.

## Main statements

* `Fleet.Tracks.apply`: an operation on the fleet and on the register keeps them in step;
* `Fleet.matches_register`: in every run, the fleet answers as the register does.
-/

namespace RideShare

/-- A line of the register. -/
structure Entry where
  /-- The vehicle, and how many of its seats are free. -/
  slot : Slot
  /-- When the number of its free seats last changed; 0 if it has not since it was loaded. -/
  changed : Nat := 0
  deriving DecidableEq

/-- A fleet on paper. -/
structure Register where
  /-- The vehicles, in the order of loading. -/
  entries : List Entry := []
  /-- When free seats were last noted. -/
  now : Nat := 0

/-- Note the free seats of a vehicle. If their number is what it was, so is its time. -/
def Entry.note (entry : Entry) (available : UInt32) (now : Nat) : Entry :=
  if available = entry.slot.available then entry
  else { slot := entry.slot.withAvailable available, changed := now }

namespace Register

/-- The vehicles of a list that are loaded: of those with an id and a proper capacity, the first one
of every id. -/
def loadable (vehicles : List Vehicle) : List Vehicle :=
  (vehicles.filter fun vehicle ↦
    vehicle.id != noVehicle && isSeatCount vehicle.capacity).eraseDupsBy fun a b ↦ a.id == b.id

/-- A register of new vehicles with all their seats free. -/
def ofVehicles (vehicles : List Vehicle) : Register :=
  { entries := (loadable vehicles).map fun vehicle ↦
      { slot := { vehicle, available := vehicle.capacity } } }

/-- The line of the vehicle with the given id. -/
def find? (register : Register) (id : UInt64) : Option Entry :=
  register.entries.find? (·.slot.vehicle.id = id)

/-- Note the free seats of the vehicle with the given id. -/
def note (register : Register) (id : UInt64) (available : UInt32) : Register where
  entries := register.entries.map fun entry ↦
    if entry.slot.vehicle.id = id then entry.note available (register.now + 1) else entry
  now := register.now + 1

/-- The vehicle has room, and every other one with room has more seats free, or has had as many for
no longer. -/
def FitsBest (register : Register) (size : UInt32) (entry : Entry) : Prop :=
  size ≤ entry.slot.available ∧ ∀ other ∈ register.entries, size ≤ other.slot.available →
    entry.slot.available < other.slot.available ∨
      entry.slot.available = other.slot.available ∧ entry.changed ≤ other.changed

instance (register : Register) (size : UInt32) : DecidablePred (register.FitsBest size) :=
  fun _ ↦ inferInstanceAs (Decidable (_ ∧ _))

/-- The first line of those that fit best. -/
def bestFit? (register : Register) (size : UInt32) : Option Entry :=
  register.entries.find? (register.FitsBest size)

/-- Take `size` seats on the vehicle that fits best. -/
def reserve (register : Register) (size : UInt32) : Option UInt64 × Register :=
  match if isSeatCount size then register.bestFit? size else none with
  | none => (none, register)
  | some entry =>
    (some entry.slot.vehicle.id,
      register.note entry.slot.vehicle.id (entry.slot.available - size))

/-- Give `size` seats back to a vehicle, up to its capacity. -/
def release (register : Register) (id : UInt64) (size : UInt32) : UInt32 × Register :=
  match register.find? id with
  | none => (0, register)
  | some entry =>
    let slot := entry.slot
    let available := min slot.vehicle.capacity.toNat (slot.available.toNat + size.toNat)
    (available.toUInt32, register.note id available.toUInt32)

/-- Take `size` seats on a vehicle that has them. -/
def tryReserve (register : Register) (id : UInt64) (size : UInt32) : Bool × Register :=
  match (register.find? id).filter fun entry ↦ 1 ≤ size ∧ size ≤ entry.slot.available with
  | none => (false, register)
  | some entry => (true, register.note id (entry.slot.available - size))

end Register

/-! ## What was given last -/

section LastGiven

variable {α β : Type} {given? : α → Option β}

/-- The last of what some operations give; what there was at first if none of them gives
anything. -/
def lastGiven (given? : α → Option β) (first : β) (operations : List α) : β :=
  (operations.filterMap given?).getLast?.getD first

@[simp] theorem lastGiven_nil (first : β) : lastGiven given? first [] = first := rfl

theorem lastGiven_concat (first : β) (operations : List α) (operation : α) :
    lastGiven given? first (operations ++ [operation]) =
      (given? operation).getD (lastGiven given? first operations) := by
  rw [lastGiven, List.filterMap_append]
  cases hgiven : given? operation with
  | none =>
    rw [List.filterMap_cons_none hgiven, List.filterMap_nil, List.append_nil, Option.getD_none,
      lastGiven]
  | some value =>
    rw [List.filterMap_cons_some hgiven, List.filterMap_nil, List.getLast?_concat,
      Option.getD_some, Option.getD_some]

end LastGiven

/-! ## Operations -/

namespace Fleet

/-- An operation on a fleet, with its arguments. -/
inductive Operation where
  /-- Load other vehicles. -/
  | reset (vehicles : List Vehicle)
  /-- Take seats on the vehicle that fits best. -/
  | reserve (size : UInt32)
  /-- Give seats back. -/
  | release (id : UInt64) (size : UInt32)
  /-- Take seats on a certain vehicle. -/
  | tryReserve (id : UInt64) (size : UInt32)

/-- What an operation answers. -/
inductive Answer where
  /-- The vehicles are loaded. -/
  | loaded
  /-- The vehicle on which seats were taken, if any. -/
  | vehicle (id? : Option UInt64)
  /-- How many seats the vehicle now has free. -/
  | free (available : UInt32)
  /-- Whether seats were taken. -/
  | taken (granted : Bool)
  deriving DecidableEq

/-- Carry out an operation. -/
def apply (fleet : Fleet) : Operation → Answer × Fleet
  | .reset vehicles => (.loaded, ofVehicles vehicles)
  | .reserve size => (.vehicle (fleet.reserve size).1, (fleet.reserve size).2)
  | .release id size => (.free (fleet.release id size).1, (fleet.release id size).2)
  | .tryReserve id size => (.taken (fleet.tryReserve id size).1, (fleet.tryReserve id size).2)

/-- The fleet after some operations, the first of them on a fleet without vehicles. -/
def run (operations : List Operation) : Fleet :=
  operations.foldl (fun fleet operation ↦ (fleet.apply operation).2) {}

theorem run_concat (operations : List Operation) (operation : Operation) :
    run (operations ++ [operation]) = ((run operations).apply operation).2 :=
  List.foldl_append

end Fleet

namespace Register

open Fleet

/-- Carry out an operation on paper. -/
def apply (register : Register) : Operation → Answer × Register
  | .reset vehicles => (.loaded, ofVehicles vehicles)
  | .reserve size => (.vehicle (register.reserve size).1, (register.reserve size).2)
  | .release id size => (.free (register.release id size).1, (register.release id size).2)
  | .tryReserve id size =>
    (.taken (register.tryReserve id size).1, (register.tryReserve id size).2)

/-- The register after some operations. -/
def run (operations : List Operation) : Register :=
  operations.foldl (fun register operation ↦ (register.apply operation).2) {}

/-- The vehicle at place `i` has been as it is for longer than the one at place `j`. -/
def Before (register : Register) (i j : Nat) : Prop :=
  ∀ a b, register.entries[i]? = some a → register.entries[j]? = some b →
    a.changed < b.changed ∨ a.changed = b.changed ∧ i < j

end Register

namespace Fleet

/-- The register has the vehicles of the fleet, and the rows of the fleet stand in the order of the
times in the register. -/
structure Tracks (fleet : Fleet) (register : Register) : Prop where
  /-- The fleet is sound. -/
  sound : fleet.Sound
  /-- The vehicles are the same, in the same order. -/
  slots_eq : fleet.slots.toList = register.entries.map Entry.slot
  /-- No time lies ahead. -/
  changed_le : ∀ entry ∈ register.entries, entry.changed ≤ register.now
  /-- The rows stand in the order of times. -/
  pairwise_row : ∀ level, (fleet.row level).Pairwise register.Before

/-! ## Loading -/

private theorem loadable_cons (vehicle : Vehicle) (rest : List Vehicle) :
    Register.loadable (vehicle :: rest) =
      if vehicle.id ≠ noVehicle ∧ isSeatCount vehicle.capacity then
        vehicle :: Register.loadable (rest.filter fun other ↦ !(other.id == vehicle.id))
      else Register.loadable rest := by
  rw [Register.loadable, List.filter_cons]
  by_cases hproper : vehicle.id ≠ noVehicle ∧ isSeatCount vehicle.capacity
  · rw [if_pos (by simpa using hproper), if_pos hproper, List.eraseDupsBy_cons, Register.loadable,
      List.filter_filter, List.filter_filter]
    simp only [Bool.and_comm, Bool.decide_eq_false]
  · rw [if_neg (by simpa using hproper), if_neg hproper, Register.loadable]

/-- One vehicle after the other is loaded, unless it has to be passed over. -/
private theorem slots_foldl_load (fleet : Fleet) (vehicles : List Vehicle) :
    (vehicles.foldl load fleet).slots.toList = fleet.slots.toList ++
      (Register.loadable (vehicles.filter fun vehicle ↦ !fleet.index.contains vehicle.id)).map
        fun vehicle ↦ { vehicle, available := vehicle.capacity } := by
  induction vehicles generalizing fleet with
  | nil => simp [Register.loadable]
  | cons vehicle rest ih =>
    rw [List.foldl_cons, ih]
    by_cases hold : fleet.index.contains vehicle.id = true
    · rw [load_of_passedOver (by simp [hold]), List.filter_cons_of_neg (by simp [hold])]
    rw [Bool.not_eq_true] at hold
    rw [List.filter_cons_of_pos (by simp [hold]), loadable_cons]
    split
    next hproper =>
      have hloads := And.intro hproper.1 (And.intro hproper.2 hold)
      rw [slots_load, if_pos hloads, List.filter_filter]
      simp [contains_index_load hloads, Bool.beq_comm]
    next hproper =>
      rw [load_of_passedOver fun hloads ↦ hproper ⟨hloads.1, hloads.2.1⟩]

theorem slots_ofVehicles (vehicles : List Vehicle) : (ofVehicles vehicles).slots.toList =
    (Register.loadable vehicles).map fun vehicle ↦ { vehicle, available := vehicle.capacity } := by
  rw [ofVehicles, slots_foldl_load]
  simp [List.filter_eq_self.mpr]

/-- Proper vehicles with ids of their own are all loaded. -/
theorem slots_ofVehicles_of_nodup {vehicles : List Vehicle}
    (hproper : ∀ vehicle ∈ vehicles, vehicle.id ≠ noVehicle ∧ isSeatCount vehicle.capacity = true)
    (hnodup : (vehicles.map Vehicle.id).Nodup) :
    (ofVehicles vehicles).slots.toList =
      vehicles.map fun vehicle ↦ { vehicle, available := vehicle.capacity } := by
  suffices hall : Register.loadable vehicles = vehicles by rw [slots_ofVehicles, hall]
  induction vehicles with
  | nil => rfl
  | cons vehicle rest ih =>
    rw [List.forall_mem_cons] at hproper
    rw [List.map_cons, List.nodup_cons] at hnodup
    have hothers : (rest.filter fun other ↦ !(other.id == vehicle.id)) = rest := by
      refine List.filter_eq_self.mpr fun other hother ↦ ?_
      rw [Bool.not_eq_true', beq_eq_false_iff_ne]
      exact fun heq ↦ hnodup.1 (heq ▸ List.mem_map_of_mem hother)
    rw [loadable_cons, if_pos hproper.1, hothers, ih hproper.2 hnodup.2]

/-- Vehicles that have just been loaded stand in the order of loading. -/
private theorem pairwise_row_ofVehicles (vehicles : List Vehicle) (level : Nat) :
    ((ofVehicles vehicles).row level).Pairwise (· < ·) := by
  induction vehicles using List.reverseRecOn with
  | nil => exact (row_empty level).symm ▸ List.Pairwise.nil
  | append_singleton vehicles vehicle ih =>
    have hsound := sound_ofVehicles vehicles
    have hload : ofVehicles (vehicles ++ [vehicle]) = (ofVehicles vehicles).load vehicle := by
      simp [ofVehicles]
    rw [hload]
    rcases hsound.row_load vehicle level with hrow | hrow
    · rwa [hrow]
    · rw [hrow, List.pairwise_append]
      refine ⟨ih, List.pairwise_singleton _ _, fun i hi j hj ↦ ?_⟩
      obtain ⟨slot, hslot, -⟩ := (hsound.mem_row i level).mp hi
      rw [List.mem_singleton.mp hj]
      exact (Array.getElem?_eq_some_iff.mp hslot).1

theorem tracks_ofVehicles (vehicles : List Vehicle) :
    (ofVehicles vehicles).Tracks (Register.ofVehicles vehicles) where
  sound := sound_ofVehicles vehicles
  slots_eq := by simp [slots_ofVehicles, Register.ofVehicles, Function.comp_def]
  changed_le := by simp [Register.ofVehicles]
  pairwise_row level := by
    refine (pairwise_row_ofVehicles vehicles level).imp fun {i j} hlt a b ha hb ↦ ?_
    have hnew {k : Nat} {entry : Entry}
        (hentry : (Register.ofVehicles vehicles).entries[k]? = some entry) : entry.changed = 0 := by
      have hmem := List.mem_of_getElem? hentry
      rw [Register.ofVehicles, List.mem_map] at hmem
      obtain ⟨vehicle, -, rfl⟩ := hmem
      rfl
    exact .inr ⟨(hnew ha).trans (hnew hb).symm, hlt⟩

/-! ## Setting seats -/

end Fleet

@[simp] theorem Entry.slot_note (entry : Entry) (available : UInt32) (now : Nat) :
    (entry.note available now).slot = entry.slot.withAvailable available := by
  rw [note]
  split
  next hsame => rw [hsame, Slot.withAvailable]
  next => rfl

namespace Fleet.Tracks

variable {fleet : Fleet} {register : Register} {id : UInt64} {slot : Slot} {entry : Entry}
  {available size : UInt32} {i j : Nat}

theorem getElem?_slots (h : fleet.Tracks register) (i : Nat) :
    fleet.slots[i]? = register.entries[i]?.map Entry.slot := by
  rw [← Array.getElem?_toList, h.slots_eq, List.getElem?_map]

theorem mem_slots (h : fleet.Tracks register) (hentry : entry ∈ register.entries) :
    entry.slot ∈ fleet.slots := by
  rw [← Array.mem_toList_iff, h.slots_eq]
  exact List.mem_map_of_mem hentry

theorem find?_eq (h : fleet.Tracks register) (id : UInt64) :
    fleet.find? id = (register.find? id).map Entry.slot := by
  cases hentry : register.find? id with
  | some entry =>
    exact h.sound.find?_eq_some_iff.mpr ⟨h.mem_slots (List.mem_of_find?_eq_some hentry),
      by simpa using List.find?_some hentry⟩
  | none =>
    rw [Option.map_none, Option.eq_none_iff_forall_ne_some]
    intro slot hslot
    obtain ⟨hmem, hid⟩ := h.sound.find?_eq_some_iff.mp hslot
    rw [← Array.mem_toList_iff, h.slots_eq, List.mem_map] at hmem
    obtain ⟨entry, hmem, rfl⟩ := hmem
    exact List.find?_eq_none.mp hentry entry hmem (by simpa using hid)

/-- One line is written anew, the one of the vehicle at place `i`. -/
private theorem getElem?_entries_note (h : fleet.Tracks register) (hi : fleet.slots[i]? = some slot)
    (available : UInt32) (j : Nat) :
    (register.note slot.vehicle.id available).entries[j]? = register.entries[j]?.map fun entry ↦
      if i = j then entry.note available (register.now + 1) else entry := by
  rw [Register.note, List.getElem?_map]
  refine Option.map_congr fun entry hentry ↦ ?_
  have hj : fleet.slots[j]? = some entry.slot := by rw [h.getElem?_slots, hentry, Option.map_some]
  have hid : entry.slot.vehicle.id = slot.vehicle.id ↔ i = j := by
    constructor
    · exact fun hid ↦ h.sound.eq_of_id_eq hi hj hid.symm
    · rintro rfl
      rw [Option.some.inj (hi.symm.trans hj)]
  simp only [hid]

/-- What is noted is there already. -/
private theorem entries_note_self (h : fleet.Tracks register) (hi : fleet.slots[i]? = some slot) :
    (register.note slot.vehicle.id slot.available).entries = register.entries := by
  apply List.ext_getElem?
  intro j
  rw [h.getElem?_entries_note hi]
  cases hj : register.entries[j]? with
  | none => rfl
  | some entry =>
    rw [Option.map_some]
    split
    next hij =>
      rw [hij, h.getElem?_slots, hj, Option.map_some, Option.some.injEq] at hi
      rw [Entry.note, if_pos (by rw [hi])]
    next => rfl

/-- Two vehicles that are not touched keep their order. -/
private theorem before_note (h : fleet.Tracks register) (hi : fleet.slots[i]? = some slot)
    (available : UInt32) {j k : Nat} (hj : j ≠ i) (hk : k ≠ i) (hbefore : register.Before j k) :
    (register.note slot.vehicle.id available).Before j k := by
  intro a b ha hb
  rw [h.getElem?_entries_note hi] at ha hb
  simp only [Ne.symm hj, Ne.symm hk, if_false, Option.map_id'] at ha hb
  exact hbefore a b ha hb

/-- A vehicle that has just changed comes after all others. -/
private theorem before_note_self (h : fleet.Tracks register) (hi : fleet.slots[i]? = some slot)
    (hne : available ≠ slot.available) {j : Nat} (hj : j ≠ i) :
    (register.note slot.vehicle.id available).Before j i := by
  intro a b ha hb
  rw [h.getElem?_entries_note hi] at ha hb
  simp only [Ne.symm hj, if_false, if_true, Option.map_id', Option.map_eq_some_iff] at ha hb
  obtain ⟨entry, hentry, rfl⟩ := hb
  rw [h.getElem?_slots, hentry, Option.map_some, Option.some.injEq] at hi
  rw [Entry.note, if_neg (by rwa [hi])]
  exact .inl (Nat.lt_succ_of_le (h.changed_le a (List.mem_of_getElem? ha)))

private theorem pairwise_row_setAvailable (h : fleet.Tracks register)
    (hi : fleet.slots[i]? = some slot) (hle : available ≤ slot.vehicle.capacity) (level : Nat) :
    ((fleet.setAvailable i available).row level).Pairwise
      (register.note slot.vehicle.id available).Before := by
  by_cases hsame : available = slot.available
  · have hentries := h.entries_note_self hi
    rw [hsame, setAvailable_self hi]
    unfold Register.Before
    rw [hentries]
    exact h.pairwise_row level
  rw [h.sound.row_setAvailable hi hle hsame]
  split
  next hlevel =>
    -- The vehicle comes from another row.
    have hnot {j : Nat} (hj : j ∈ fleet.row level) : j ≠ i := by
      rintro rfl
      obtain ⟨slot', hslot', havailable⟩ := (h.sound.mem_row j level).mp hj
      obtain rfl := Option.some.inj (hi.symm.trans hslot')
      exact hsame (UInt32.toNat_inj.mp (hlevel.symm.trans havailable.symm))
    refine List.pairwise_append.mpr ⟨?_, List.pairwise_singleton _ _, fun j hj k hk ↦ ?_⟩
    · exact (h.pairwise_row level).imp_of_mem fun hj hk ↦
        h.before_note hi available (hnot hj) (hnot hk)
    · rw [List.mem_singleton.mp hk]
      exact h.before_note_self hi hsame (hnot hj)
  next =>
    -- The row loses the vehicle, if it was there, and is otherwise as it was.
    have hnot {j : Nat} (hj : j ∈ (fleet.row level).erase i) : j ≠ i := by
      rintro rfl
      exact (h.sound.members level).chain.nodup.not_mem_erase hj
    exact ((h.pairwise_row level).sublist List.erase_sublist).imp_of_mem fun hj hk ↦
      h.before_note hi available (hnot hj) (hnot hk)

theorem setAvailable (h : fleet.Tracks register) (hi : fleet.slots[i]? = some slot)
    (hle : available ≤ slot.vehicle.capacity) :
    (fleet.setAvailable i available).Tracks (register.note slot.vehicle.id available) := by
  refine ⟨h.sound.setAvailable hi hle, ?_, fun entry hentry ↦ ?_,
    h.pairwise_row_setAvailable hi hle⟩
  · apply List.ext_getElem?
    intro j
    rw [Array.getElem?_toList, getElem?_slots_setAvailable hi, List.getElem?_map,
      h.getElem?_entries_note hi, h.getElem?_slots]
    by_cases hij : i = j
    · subst hij
      rw [h.getElem?_slots, Option.map_eq_some_iff] at hi
      obtain ⟨entry, hentry, rfl⟩ := hi
      simp [hentry]
    · simp [hij]
  · obtain ⟨j, hj⟩ := List.mem_iff_getElem?.mp hentry
    rw [h.getElem?_entries_note hi, Option.map_eq_some_iff] at hj
    obtain ⟨old, hold, rfl⟩ := hj
    have := h.changed_le old (List.mem_of_getElem? hold)
    simp only [Entry.note, Register.note]
    split
    · split
      · omega
      · exact Nat.le_refl _
    · omega

/-- Free seats are set and noted. -/
theorem withAvailable (h : fleet.Tracks register) (hslot : fleet.find? id = some slot)
    (hle : available ≤ slot.vehicle.capacity) :
    (fleet.withAvailable id available).Tracks (register.note id available) := by
  obtain ⟨i, hindex, hi⟩ := h.sound.exists_index hslot
  obtain rfl := h.sound.id_eq_of_find? hslot
  rw [Fleet.withAvailable, hindex]
  exact h.setAvailable hi hle

/-! ## The best fit -/

/-- The first vehicle of a row has been as it is for longer than any other one on the row. -/
private theorem before_of_head? (h : fleet.Tracks register)
    (hentry : register.entries[i]? = some entry)
    (hhead : (fleet.row entry.slot.available.toNat).head? = some i) {other : Entry}
    (hother : register.entries[j]? = some other)
    (heq : entry.slot.available = other.slot.available) (hne : j ≠ i) :
    entry.changed < other.changed ∨ entry.changed = other.changed ∧ i < j := by
  have hrow := h.pairwise_row entry.slot.available.toNat
  have hmem : j ∈ fleet.row entry.slot.available.toNat :=
    (h.sound.mem_row j _).mpr
      ⟨other.slot, by rw [h.getElem?_slots, hother, Option.map_some], by rw [heq]⟩
  obtain ⟨rest, hcons⟩ := List.head?_eq_some_iff.mp hhead
  rw [hcons] at hmem hrow
  exact (List.pairwise_cons.mp hrow).1 j (List.mem_of_ne_of_mem hne hmem) entry other hentry hother

/-- Among equally good vehicles the first one of their row is the first one that fits best. -/
theorem bestFit?_eq (h : fleet.Tracks register) (size : UInt32) :
    register.bestFit? size = (fleet.bestFit? size).bind (register.entries[·]?) := by
  cases hfit : fleet.bestFit? size with
  | none =>
    have hfull := h.sound.bestFit?_eq_none hfit
    rw [Option.bind_none, Register.bestFit?, List.find?_eq_none]
    intro entry hentry hbest
    exact UInt32.not_le.mpr (hfull _ (h.mem_slots hentry)) (of_decide_eq_true hbest).1
  | some i =>
    obtain ⟨slot, hi, hle, hhead, hleast⟩ := h.sound.bestFit?_eq_some hfit
    have hentry := hi
    rw [h.getElem?_slots, Option.map_eq_some_iff] at hentry
    obtain ⟨entry, hentry, rfl⟩ := hentry
    rw [Option.bind_some, hentry]
    refine List.find?_eq_some_iff_getElem.mpr ⟨decide_eq_true ⟨hle, fun other hother hroom ↦ ?_⟩, i,
      (List.getElem?_eq_some_iff.mp hentry).1, (List.getElem?_eq_some_iff.mp hentry).2,
      fun j hj ↦ ?_⟩
    · have hle' := hleast _ (h.mem_slots hother) hroom
      obtain ⟨j, hj⟩ := List.mem_iff_getElem?.mp hother
      by_cases heq : entry.slot.available = other.slot.available
      · refine .inr ⟨heq, ?_⟩
        by_cases hji : j = i
        · subst hji
          rw [Option.some.inj (hentry.symm.trans hj)]
        · rcases h.before_of_head? hentry hhead hj heq hji with hlt | ⟨heq', -⟩ <;> omega
      · exact .inl (UInt32.lt_of_le_of_ne hle' heq)
    · -- A vehicle that was loaded earlier and fits as well has changed later.
      have hlt : j < register.entries.length :=
        Nat.lt_trans hj (List.getElem?_eq_some_iff.mp hentry).1
      have hother : register.entries[j]? = some register.entries[j] := List.getElem?_eq_getElem hlt
      rw [Bool.not_eq_true', decide_eq_false_iff_not]
      rintro ⟨hroom, hbest⟩
      have hle' := hleast _ (h.mem_slots (List.getElem_mem hlt)) hroom
      rcases hbest entry (List.mem_of_getElem? hentry) hle with hless | ⟨heq, hchanged⟩
      · exact UInt32.not_le.mpr hless hle'
      · have hne := Nat.ne_of_lt hj
        rcases h.before_of_head? hentry hhead hother heq.symm hne with hlt' | ⟨-, hlt'⟩ <;> omega

/-! ## Operations -/

theorem reserve (h : fleet.Tracks register) (size : UInt32) :
    (fleet.reserve size).1 = (register.reserve size).1 ∧
      (fleet.reserve size).2.Tracks (register.reserve size).2 := by
  by_cases hsize : isSeatCount size = true
  · rw [Register.reserve, if_pos hsize, h.bestFit?_eq]
    cases hfit : fleet.bestFit? size with
    | none => simpa [Fleet.reserve, hsize, hfit] using h
    | some i =>
      obtain ⟨slot, hi, hle, -⟩ := h.sound.bestFit?_eq_some hfit
      have hproper := h.sound.proper_of_getElem? hi
      have hentry := hi
      rw [h.getElem?_slots, Option.map_eq_some_iff] at hentry
      obtain ⟨entry, hentry, rfl⟩ := hentry
      have hless : entry.slot.available - size ≤ entry.slot.vehicle.capacity :=
        hproper.sub_le hle
      simpa [Fleet.reserve, hsize, hfit, hentry, Array.getD_eq_getD_getElem?, hi] using
        h.setAvailable hi hless
  · rw [Bool.not_eq_true] at hsize
    simpa [Register.reserve, Fleet.reserve, hsize] using h

theorem release (h : fleet.Tracks register) (id : UInt64) (size : UInt32) :
    (fleet.release id size).1 = (register.release id size).1 ∧
      (fleet.release id size).2.Tracks (register.release id size).2 := by
  have hfind := h.find?_eq id
  cases hentry : register.find? id with
  | none =>
    rw [hentry, Option.map_none] at hfind
    rw [release_of_unknown hfind, Register.release, hentry]
    exact ⟨rfl, h⟩
  | some entry =>
    rw [hentry, Option.map_some] at hfind
    have hproper := h.sound.proper_of_find? hfind
    have hfreed : (min entry.slot.vehicle.capacity.toNat
        (entry.slot.available.toNat + size.toNat)).toUInt32 = entry.slot.freed size := by
      rw [← hproper.toNat_freed]
      exact UInt32.ofNat_toNat
    rw [release_eq hfind, Register.release, hentry]
    simp only [hfreed, true_and]
    exact h.withAvailable hfind (hproper.freed_le size)

theorem tryReserve (h : fleet.Tracks register) (id : UInt64) (size : UInt32) :
    (fleet.tryReserve id size).1 = (register.tryReserve id size).1 ∧
      (fleet.tryReserve id size).2.Tracks (register.tryReserve id size).2 := by
  have hfind := h.find?_eq id
  rw [Register.tryReserve]
  rcases fleet.tryReserve_cases id size with ⟨hrefused, hnot⟩ | ⟨slot, hslot, hpos, hle, htaken⟩
  · have hnone : ((register.find? id).filter fun entry ↦
        decide (1 ≤ size ∧ size ≤ entry.slot.available)) = none := by
      refine Option.filter_eq_none_iff.mpr fun entry hentry ↦ ?_
      rw [hentry] at hfind
      simpa using hnot entry.slot hfind
    rw [hrefused, hnone]
    exact ⟨rfl, h⟩
  · have hless : slot.available - size ≤ slot.vehicle.capacity :=
      (h.sound.proper_of_find? hslot).sub_le hle
    have hset := h.withAvailable hslot hless
    rw [hslot] at hfind
    obtain ⟨entry, hentry, rfl⟩ := Option.map_eq_some_iff.mp hfind.symm
    rw [htaken, hentry, Option.filter_some, if_pos (decide_eq_true ⟨hpos, hle⟩)]
    exact ⟨rfl, hset⟩

theorem apply (h : fleet.Tracks register) (operation : Operation) :
    (fleet.apply operation).1 = (register.apply operation).1 ∧
      (fleet.apply operation).2.Tracks (register.apply operation).2 := by
  cases operation with
  | reset vehicles => exact ⟨rfl, tracks_ofVehicles vehicles⟩
  | reserve size => exact ⟨congrArg Answer.vehicle (h.reserve size).1, (h.reserve size).2⟩
  | release id size => exact ⟨congrArg Answer.free (h.release id size).1, (h.release id size).2⟩
  | tryReserve id size =>
    exact ⟨congrArg Answer.taken (h.tryReserve id size).1, (h.tryReserve id size).2⟩

end Fleet.Tracks

namespace Fleet

theorem tracks_run (operations : List Operation) :
    (run operations).Tracks (Register.run operations) := by
  induction operations using List.reverseRecOn with
  | nil => exact tracks_ofVehicles []
  | append_singleton operations operation ih =>
    rw [run_concat, Register.run, List.foldl_append]
    exact (ih.apply operation).2

/-- A search that finds nobody changes nothing. -/
private theorem reserve_or {fleet : Fleet} (h : fleet.Sound) (size : UInt32) :
    (fleet.reserve size = (none, fleet) ∧
      (isSeatCount size = false ∨ ∀ slot ∈ fleet.slots, slot.available < size)) ∨
    ∃ slot ∈ fleet.slots, isSeatCount size = true ∧ size ≤ slot.available ∧
      (fleet.reserve size).1 = some slot.vehicle.id := by
  by_cases hsize : isSeatCount size = true
  · rcases h.reserve_cases hsize with ⟨hnone, hfull⟩ | ⟨slot, hslot, hle, -, hsome⟩
    · exact .inl ⟨hnone, .inr hfull⟩
    · exact .inr ⟨slot, h.mem_slots_iff.mpr hslot, hsize, hle, by rw [hsome]⟩
  · rw [Bool.not_eq_true] at hsize
    exact .inl ⟨reserve_of_not_isSeatCount hsize, .inl hsize⟩

/-- The fleet is as good as the register, and an operation that is refused leaves it as it is. -/
structure Matches (fleet : Fleet) (register : Register) : Prop where
  /-- The vehicles and their free seats are the same, in the order of loading. -/
  slots_eq : fleet.slots.toList = register.entries.map Entry.slot
  /-- The next operation is answered as on paper. -/
  answer_eq : ∀ operation, (fleet.apply operation).1 = (register.apply operation).1
  /-- A search finds nobody exactly if parties have no such size or nobody has the seats. -/
  reserve_eq_none_iff : ∀ size, (fleet.reserve size).1 = none ↔
    isSeatCount size = false ∨ ∀ slot ∈ fleet.slots, slot.available < size
  /-- A search that finds nobody changes nothing. -/
  reserve_of_none : ∀ size, (fleet.reserve size).1 = none → (fleet.reserve size).2 = fleet
  /-- Whoever is found has an id. -/
  reserve_ne_noVehicle : ∀ size, (fleet.reserve size).1 ≠ some noVehicle
  /-- An unknown vehicle gets no seats back. -/
  release_of_none : ∀ id size, fleet.find? id = none → fleet.release id size = (0, fleet)
  /-- Seats are taken exactly if the vehicle is loaded and has them. -/
  tryReserve_eq_true_iff : ∀ id size, (fleet.tryReserve id size).1 = true ↔
    ∃ slot, fleet.find? id = some slot ∧ 1 ≤ size ∧ size ≤ slot.available
  /-- Seats that are not taken change nothing. -/
  tryReserve_of_false : ∀ id size,
    (fleet.tryReserve id size).1 = false → (fleet.tryReserve id size).2 = fleet

theorem Tracks.matches {fleet : Fleet} {register : Register} (h : fleet.Tracks register) :
    fleet.Matches register where
  slots_eq := h.slots_eq
  answer_eq operation := (h.apply operation).1
  reserve_eq_none_iff size := by
    rcases reserve_or h.sound size with ⟨hnone, hwhy⟩ | ⟨slot, hslot, hsize, hle, hsome⟩
    · rw [hnone]
      exact iff_of_true rfl hwhy
    · rw [hsome]
      refine iff_of_false nofun (not_or.mpr ⟨by simp [hsize], fun hfull ↦ ?_⟩)
      exact UInt32.not_le.mpr (hfull slot hslot) hle
  reserve_of_none size hnone := by
    rcases reserve_or h.sound size with ⟨hsame, -⟩ | ⟨slot, -, -, -, hsome⟩
    · rw [hsame]
    · rw [hsome] at hnone
      cases hnone
  reserve_ne_noVehicle size := by
    rcases reserve_or h.sound size with ⟨hnone, -⟩ | ⟨slot, hslot, -, -, hsome⟩
    · rw [hnone]
      exact nofun
    · rw [hsome]
      exact fun hid ↦ (h.sound.proper slot hslot).id_ne (Option.some.inj hid)
  release_of_none id size hnone := release_of_unknown hnone size
  tryReserve_eq_true_iff id size := by
    rcases fleet.tryReserve_cases id size with ⟨hrefused, hnot⟩ | ⟨slot, hslot, hpos, hle, htaken⟩
    · rw [hrefused]
      exact iff_of_false nofun fun ⟨slot, hslot, hfits⟩ ↦ hnot slot hslot hfits
    · rw [htaken]
      exact iff_of_true rfl ⟨slot, hslot, hpos, hle⟩
  tryReserve_of_false id size hfalse := by
    rcases fleet.tryReserve_cases id size with ⟨hrefused, -⟩ | ⟨slot, -, -, -, htaken⟩
    · rw [hrefused]
    · rw [htaken] at hfalse
      cases hfalse

/-- Whatever was done with a fleet, it answers as its register does. -/
theorem matches_register (operations : List Operation) :
    (run operations).Matches (Register.run operations) :=
  (tracks_run operations).matches

/-- Giving back seats that are free already is no change: vehicle 1 still comes first. -/
example : ((Register.run [.reset [⟨1, 4⟩, ⟨2, 4⟩], .release 1 2]).apply (.reserve 4)).1 =
    .vehicle (some 1) := by decide

end Fleet

end RideShare
