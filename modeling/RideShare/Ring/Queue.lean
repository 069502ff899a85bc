import RideShare.Ring

/-!
# A ring is a queue

The values a ring stores, the oldest first, are a list. Storing a value appends it, taking values
splits off the front, and no other part of the ring shows in that list.

What makes this true is an order of places on the circle, `Ring.WellPlaced`: going round from where
the writer saw the reader last, one meets the reader, and then the writer, before coming round
again; and from the reader on one meets where the reader saw the writer last no later than the
writer. So each side knows of less room or fewer values than there are, and never of more.

## Main statements

* `Ring.WellPlaced.fst_enqueue` and `Ring.WellPlaced.toList_enqueue`: a value is stored, behind all
  others, exactly if the ring is not full;
* `Ring.WellPlaced.dequeueBatch_append` and `Ring.WellPlaced.length_dequeueBatch`: a batch is split
  off the front, as long as the reader sees values and no longer than was asked for;
* `Ring.WellPlaced.fst_dequeue` and `Ring.WellPlaced.toList_dequeue`: so is a single value;
* `Ring.WellPlaced.offered_eq_zero_iff`: the reader sees no value only if there is none.
-/

namespace RideShare.Ring

variable {α : Type}

/-! ## Places -/

theorem next_lt (ring : Ring α) {i : Nat} (hi : i < ring.slots.size) :
    ring.next i < ring.slots.size :=
  Nat.mod_lt _ (by omega)

/-- The next place is one further on, or one further on and once round. -/
theorem next_eq (ring : Ring α) {i : Nat} (hi : i < ring.slots.size) :
    ring.next i = i + 1 ∨ ring.next i + ring.slots.size = i + 1 := by
  rcases Nat.lt_or_ge (i + 1) ring.slots.size with h | h
  · exact .inl (Nat.mod_eq_of_lt h)
  · obtain h : i + 1 = ring.slots.size := by omega
    simp [next, h]

theorem distance_lt (ring : Ring α) {i j : Nat} (hi : i < ring.slots.size) :
    ring.distance i j < ring.slots.size :=
  Nat.mod_lt _ (by omega)

/-- Going the distance from a place to another leads there, or there and once round. -/
theorem add_distance (ring : Ring α) {i j : Nat} (hi : i < ring.slots.size)
    (hj : j < ring.slots.size) :
    i + ring.distance i j = j ∨ i + ring.distance i j = j + ring.slots.size := by
  rw [distance]
  rcases Nat.lt_or_ge j i with h | h
  · rw [Nat.mod_eq_of_lt (by omega)]
    omega
  · rw [Nat.mod_eq_sub_mod (by omega), Nat.mod_eq_of_lt (by omega)]
    omega

/-- The order of the places on the circle. -/
structure WellPlaced (ring : Ring α) : Prop where
  /-- The writer stands at a slot. -/
  write_lt : ring.write < ring.slots.size
  /-- The reader stands at a slot. -/
  read_lt : ring.read < ring.slots.size
  /-- The writer saw the reader at a slot. -/
  readSeen_lt : ring.readSeen < ring.slots.size
  /-- The reader saw the writer at a slot. -/
  writeSeen_lt : ring.writeSeen < ring.slots.size
  /-- The reader is not met before where the writer saw it, nor the writer before the reader. -/
  readSeen_behind : ring.distance ring.readSeen ring.read + ring.size < ring.slots.size
  /-- The writer is not met before where the reader saw it. -/
  writeSeen_behind : ring.distance ring.read ring.writeSeen ≤ ring.size

theorem wellPlaced_ofSlots [Inhabited α] {slots : Nat} (h : 0 < slots) :
    (ofSlots slots : Ring α).WellPlaced := by
  constructor <;> simp [ofSlots, distance, size, h]

namespace WellPlaced

variable {ring : Ring α}

theorem size_lt (h : ring.WellPlaced) : ring.size < ring.slots.size := ring.distance_lt h.read_lt

theorem read_add_size (h : ring.WellPlaced) :
    ring.read + ring.size = ring.write ∨ ring.read + ring.size = ring.write + ring.slots.size :=
  ring.add_distance h.read_lt h.write_lt

end WellPlaced

/-! ## Looking at the other side -/

@[simp] theorem slots_refreshRead (ring : Ring α) : ring.refreshRead.slots = ring.slots := by
  rw [refreshRead]
  split <;> rfl

@[simp] theorem write_refreshRead (ring : Ring α) : ring.refreshRead.write = ring.write := by
  rw [refreshRead]
  split <;> rfl

@[simp] theorem size_refreshRead (ring : Ring α) : ring.refreshRead.size = ring.size := by
  rw [refreshRead]
  split <;> rfl

@[simp] theorem next_refreshRead (ring : Ring α) (i : Nat) :
    ring.refreshRead.next i = ring.next i := by
  rw [next, slots_refreshRead, next]

@[simp] theorem slots_refreshWrite (ring : Ring α) : ring.refreshWrite.slots = ring.slots := by
  rw [refreshWrite]
  split <;> rfl

@[simp] theorem read_refreshWrite (ring : Ring α) : ring.refreshWrite.read = ring.read := by
  rw [refreshWrite]
  split <;> rfl

@[simp] theorem size_refreshWrite (ring : Ring α) : ring.refreshWrite.size = ring.size := by
  rw [refreshWrite]
  split <;> rfl

@[simp] theorem distance_refreshWrite (ring : Ring α) (i j : Nat) :
    ring.refreshWrite.distance i j = ring.distance i j := by
  rw [distance, slots_refreshWrite, distance]

/-- How many values the next batch may hold: those the reader sees, after another look if it sees
none. -/
def offered (ring : Ring α) : Nat :=
  ring.distance ring.read ring.refreshWrite.writeSeen

namespace WellPlaced

variable {ring : Ring α}

theorem refreshRead (h : ring.WellPlaced) : ring.refreshRead.WellPlaced := by
  rw [Ring.refreshRead]
  split
  next =>
    refine ⟨h.write_lt, h.read_lt, h.read_lt, h.writeSeen_lt, ?_, h.writeSeen_behind⟩
    have := h.size_lt
    simpa [distance, size] using this
  next => exact h

theorem refreshWrite (h : ring.WellPlaced) : ring.refreshWrite.WellPlaced := by
  rw [Ring.refreshWrite]
  split
  next =>
    exact ⟨h.write_lt, h.read_lt, h.readSeen_lt, h.write_lt, h.readSeen_behind, Nat.le_refl _⟩
  next => exact h

/-- After another look at the reader where one was needed, the ring seems full to the writer exactly
if it is. -/
theorem next_write_eq_readSeen_iff (h : ring.WellPlaced) :
    ring.next ring.write = ring.refreshRead.readSeen ↔ ring.size = ring.capacity := by
  have := h.read_add_size
  have := h.readSeen_behind
  have := ring.add_distance h.readSeen_lt h.read_lt
  have := ring.next_eq h.write_lt
  have := h.write_lt
  have := h.read_lt
  have := h.readSeen_lt
  rw [Ring.refreshRead, capacity]
  split
  next hfull =>
    simp only [beq_iff_eq] at hfull
    have := ring.next_lt h.write_lt
    dsimp only
    omega
  next hfull =>
    simp only [beq_iff_eq] at hfull
    have := ring.next_lt h.write_lt
    omega

/-- After another look at the writer where one was needed, the ring seems empty to the reader
exactly if it is. -/
theorem offered_eq_zero_iff (h : ring.WellPlaced) : ring.offered = 0 ↔ ring.size = 0 := by
  have := h.writeSeen_behind
  have := ring.add_distance h.read_lt h.writeSeen_lt
  have := h.read_lt
  have := h.writeSeen_lt
  rw [offered, Ring.refreshWrite]
  split
  next => rfl
  next hempty =>
    simp only [beq_iff_eq] at hempty
    omega

theorem offered_le_size (h : ring.WellPlaced) : ring.offered ≤ ring.size := by
  rw [offered, Ring.refreshWrite]
  split
  next => exact Nat.le_refl _
  next => exact h.writeSeen_behind

end WellPlaced

/-! ## Storing -/

/-- The ring after a value went to the writer's place, and the writer went on. -/
def stored (ring : Ring α) (value : α) : Ring α :=
  { ring with
    slots := ring.slots.setIfInBounds ring.write value
    write := ring.next ring.write }

@[simp] theorem size_slots_stored (ring : Ring α) (value : α) :
    (ring.stored value).slots.size = ring.slots.size := by
  simp [stored]

@[simp] theorem distance_stored (ring : Ring α) (value : α) (i j : Nat) :
    (ring.stored value).distance i j = ring.distance i j := by
  rw [distance, size_slots_stored, distance]

namespace WellPlaced

variable {ring : Ring α}

theorem size_stored (h : ring.WellPlaced) (hroom : ring.size < ring.capacity) (value : α) :
    (ring.stored value).size = ring.size + 1 := by
  have := ring.distance_lt (j := ring.next ring.write) h.read_lt
  have := ring.add_distance h.read_lt (ring.next_lt h.write_lt)
  have := ring.next_eq h.write_lt
  have := h.read_add_size
  have := h.read_lt
  have := h.write_lt
  have := ring.next_lt h.write_lt
  rw [capacity] at hroom
  rw [size, distance_stored]
  change ring.distance ring.read (ring.next ring.write) = _
  omega

theorem stored (h : ring.WellPlaced) (hroom : ring.size < ring.capacity)
    (hseen : ring.next ring.write ≠ ring.readSeen) (value : α) :
    (ring.stored value).WellPlaced := by
  have hslots := ring.size_slots_stored value
  have := h.readSeen_behind
  have := h.writeSeen_behind
  have := ring.add_distance h.readSeen_lt h.read_lt
  have := ring.next_eq h.write_lt
  have := h.read_add_size
  have := h.readSeen_lt
  have := h.read_lt
  have := h.write_lt
  have := ring.next_lt h.write_lt
  constructor
  · exact hslots.symm ▸ ring.next_lt h.write_lt
  · exact hslots.symm ▸ h.read_lt
  · exact hslots.symm ▸ h.readSeen_lt
  · exact hslots.symm ▸ h.writeSeen_lt
  · rw [distance_stored, h.size_stored hroom, hslots]
    change ring.distance ring.readSeen ring.read + _ < _
    omega
  · rw [distance_stored, h.size_stored hroom]
    exact Nat.le_succ_of_le h.writeSeen_behind

theorem enqueue_eq (h : ring.WellPlaced) (value : α) :
    ring.enqueue value =
      if ring.size = ring.capacity then (false, ring.refreshRead)
      else (true, ring.refreshRead.stored value) := by
  have hfull := h.next_write_eq_readSeen_iff
  simp only [Ring.enqueue, beq_iff_eq, next_refreshRead, write_refreshRead, hfull]
  split <;> simp [Ring.stored]

/-- A value is stored unless the ring is full. -/
theorem fst_enqueue (h : ring.WellPlaced) (value : α) :
    (ring.enqueue value).1 = true ↔ ring.size < ring.capacity := by
  have := h.size_lt
  rw [h.enqueue_eq, capacity]
  split <;> simp <;> omega

theorem enqueue (h : ring.WellPlaced) (value : α) : (ring.enqueue value).2.WellPlaced := by
  have hfull := h.next_write_eq_readSeen_iff
  rw [h.enqueue_eq]
  split
  next => exact h.refreshRead
  next hroom =>
    refine h.refreshRead.stored ?_ ?_ value
    · have := h.refreshRead.size_lt
      rw [capacity] at *
      rw [size_refreshRead, slots_refreshRead] at *
      omega
    · rwa [next_refreshRead, write_refreshRead, ne_eq, hfull]

end WellPlaced

/-! ## Taking -/

/-- The ring after the reader went on by `count` places. -/
def advanced (ring : Ring α) (count : Nat) : Ring α :=
  { ring with read := (ring.read + count) % ring.slots.size }

namespace WellPlaced

variable {ring : Ring α}

theorem advanced_zero (h : ring.WellPlaced) : ring.advanced 0 = ring := by
  rw [Ring.advanced, Nat.add_zero, Nat.mod_eq_of_lt h.read_lt]

theorem read_advanced (h : ring.WellPlaced) {count : Nat} (hcount : count ≤ ring.size) :
    (ring.advanced count).read < ring.slots.size ∧
      ((ring.advanced count).read = ring.read + count ∨
        (ring.advanced count).read + ring.slots.size = ring.read + count) := by
  have := h.read_lt
  have := h.size_lt
  refine ⟨Nat.mod_lt _ (by omega), ?_⟩
  rw [Ring.advanced]
  rcases Nat.lt_or_ge (ring.read + count) ring.slots.size with hround | hround
  · exact .inl (Nat.mod_eq_of_lt hround)
  · right
    rw [Nat.mod_eq_sub_mod hround, Nat.mod_eq_of_lt (by omega)]
    exact Nat.sub_add_cancel hround

theorem size_advanced (h : ring.WellPlaced) {count : Nat} (hcount : count ≤ ring.size) :
    count + (ring.advanced count).size = ring.size := by
  obtain ⟨hlt, hread⟩ := h.read_advanced hcount
  have := ring.add_distance hlt h.write_lt
  have := ring.distance_lt (j := ring.write) hlt
  have := h.read_add_size
  have := h.read_lt
  have := h.write_lt
  have := h.size_lt
  change count + ring.distance (ring.advanced count).read ring.write = ring.size
  omega

theorem advanced (h : ring.WellPlaced) {count : Nat}
    (hcount : count ≤ ring.distance ring.read ring.writeSeen) :
    (ring.advanced count).WellPlaced := by
  have hcount' := Nat.le_trans hcount h.writeSeen_behind
  obtain ⟨hlt, hread⟩ := h.read_advanced hcount'
  have := h.size_advanced hcount'
  have := h.readSeen_behind
  have := h.writeSeen_behind
  have := h.read_lt
  have := h.readSeen_lt
  have := h.writeSeen_lt
  refine ⟨h.write_lt, hlt, h.readSeen_lt, h.writeSeen_lt, ?_, ?_⟩
  · change ring.distance ring.readSeen _ + _ < ring.slots.size
    have := ring.add_distance h.readSeen_lt h.read_lt
    have := ring.add_distance h.readSeen_lt hlt
    have := ring.distance_lt (j := (ring.advanced count).read) h.readSeen_lt
    omega
  · change ring.distance _ ring.writeSeen ≤ _
    have := ring.add_distance h.read_lt h.writeSeen_lt
    have := ring.add_distance hlt h.writeSeen_lt
    have := ring.distance_lt (j := ring.writeSeen) hlt
    omega

end WellPlaced

/-! ## Values -/

section Values

variable [Inhabited α]

@[simp] theorem length_valuesFrom (ring : Ring α) (i count : Nat) :
    (ring.valuesFrom i count).length = count := by
  simp [valuesFrom]

@[simp] theorem length_toList (ring : Ring α) : ring.toList.length = ring.size :=
  ring.length_valuesFrom _ _

@[simp] theorem valuesFrom_zero (ring : Ring α) (i : Nat) : ring.valuesFrom i 0 = [] := rfl

theorem valuesFrom_add (ring : Ring α) (i a b : Nat) :
    ring.valuesFrom i (a + b) =
      ring.valuesFrom i a ++ ring.valuesFrom ((i + a) % ring.slots.size) b := by
  simp [valuesFrom, List.range_add, Nat.add_assoc]

/-- Values are read off the slots alone. -/
theorem valuesFrom_congr {ring ring' : Ring α} (hsize : ring'.slots.size = ring.slots.size)
    {i count : Nat} (same : ∀ k < count, ring'.slots[(i + k) % ring.slots.size]? =
      ring.slots[(i + k) % ring.slots.size]?) :
    ring'.valuesFrom i count = ring.valuesFrom i count := by
  simp only [valuesFrom, hsize, Array.getD_eq_getD_getElem?]
  refine List.map_congr_left fun k hk ↦ ?_
  rw [same k (List.mem_range.mp hk)]

@[simp] theorem toList_refreshRead (ring : Ring α) : ring.refreshRead.toList = ring.toList := by
  rw [refreshRead]
  split <;> rfl

@[simp] theorem toList_refreshWrite (ring : Ring α) : ring.refreshWrite.toList = ring.toList := by
  rw [refreshWrite]
  split <;> rfl

namespace WellPlaced

variable {ring : Ring α}

/-- The writer's place is that of none of the values, so writing there changes none. -/
theorem toList_stored (h : ring.WellPlaced) (hroom : ring.size < ring.capacity) (value : α) :
    (ring.stored value).toList = ring.toList ++ [value] := by
  have hslots := ring.size_slots_stored value
  have hread := h.read_add_size
  have hsize := h.size_lt
  have hlt := h.read_lt
  have hplace : (ring.read + ring.size) % ring.slots.size = ring.write := by
    rcases hread with hread | hread
    · rw [hread, Nat.mod_eq_of_lt h.write_lt]
    · rw [hread, Nat.add_mod_right, Nat.mod_eq_of_lt h.write_lt]
  rw [toList, h.size_stored hroom, valuesFrom_add]
  congr 1
  · refine valuesFrom_congr hslots fun k hk ↦ Array.getElem?_setIfInBounds_ne fun heq ↦ ?_
    change ring.write = (ring.read + k) % ring.slots.size at heq
    rcases Nat.lt_or_ge (ring.read + k) ring.slots.size with hround | hround
    · rw [Nat.mod_eq_of_lt hround] at heq
      omega
    · rw [Nat.mod_eq_sub_mod hround, Nat.mod_eq_of_lt (by omega)] at heq
      omega
  · rw [hslots]
    change (ring.stored value).valuesFrom ((ring.read + ring.size) % _) 1 = _
    rw [hplace]
    simp [valuesFrom, Ring.stored, Array.getD_eq_getD_getElem?, Nat.mod_eq_of_lt h.write_lt,
      h.write_lt]

/-- A value that is stored comes behind all others. -/
theorem toList_enqueue (h : ring.WellPlaced) (value : α) :
    (ring.enqueue value).2.toList =
      if ring.size < ring.capacity then ring.toList ++ [value] else ring.toList := by
  have hlt := h.size_lt
  rw [h.enqueue_eq]
  split
  next hfull => simp [hfull]
  next hroom =>
    have hroom : ring.size < ring.capacity := by
      rw [capacity] at *
      omega
    have hroom' : ring.refreshRead.size < ring.refreshRead.capacity := by
      rwa [capacity, size_refreshRead, slots_refreshRead]
    rw [if_pos hroom, h.refreshRead.toList_stored hroom', toList_refreshRead]

/-- A batch is as long as the values offered allow, and no longer than was asked for. -/
theorem dequeueBatch_eq (h : ring.WellPlaced) (most : Nat) :
    ring.dequeueBatch most =
      (ring.valuesFrom ring.read (min ring.offered most),
        ring.refreshWrite.advanced (min ring.offered most)) := by
  have hoffered :
      ring.refreshWrite.distance ring.refreshWrite.read ring.refreshWrite.writeSeen =
        ring.offered := by simp [offered]
  simp only [dequeueBatch, hoffered, beq_iff_eq]
  split
  next hempty =>
    have hzero : ring.offered = 0 := by
      rw [← hoffered, hempty, distance, Nat.add_sub_cancel_left, Nat.mod_self]
    simp [hzero, h.refreshWrite.advanced_zero]
  next =>
    simp [valuesFrom, Ring.advanced]

theorem valuesFrom_append_advanced (h : ring.WellPlaced) {count : Nat}
    (hcount : count ≤ ring.size) :
    ring.valuesFrom ring.read count ++ (ring.advanced count).toList = ring.toList := by
  rw [toList, toList, ← h.size_advanced hcount, valuesFrom_add]
  rfl

theorem dequeueBatch (h : ring.WellPlaced) (most : Nat) :
    (ring.dequeueBatch most).2.WellPlaced := by
  rw [h.dequeueBatch_eq]
  refine h.refreshWrite.advanced ?_
  rw [distance_refreshWrite, read_refreshWrite]
  exact Nat.min_le_left _ _

/-- A batch holds as many values as are offered, and no more than were asked for. -/
theorem length_dequeueBatch (h : ring.WellPlaced) (most : Nat) :
    (ring.dequeueBatch most).1.length = min ring.offered most := by
  rw [h.dequeueBatch_eq, length_valuesFrom]

/-- A batch holds the oldest values, and leaves the others. -/
theorem dequeueBatch_append (h : ring.WellPlaced) (most : Nat) :
    (ring.dequeueBatch most).1 ++ (ring.dequeueBatch most).2.toList = ring.toList := by
  have hcount : min ring.offered most ≤ ring.refreshWrite.size := by
    rw [size_refreshWrite]
    exact Nat.le_trans (Nat.min_le_left _ _) h.offered_le_size
  have happend := h.refreshWrite.valuesFrom_append_advanced hcount
  rw [toList_refreshWrite, read_refreshWrite, valuesFrom, slots_refreshWrite] at happend
  rw [h.dequeueBatch_eq]
  exact happend

/-- Taking one value off is taking a batch of one. -/
theorem dequeueBatch_one (h : ring.WellPlaced) :
    (ring.dequeueBatch 1).1 = ring.toList.head?.toList := by
  have happend := h.dequeueBatch_append 1
  have hlength := h.length_dequeueBatch 1
  have hoffered := h.offered_eq_zero_iff
  rw [← ring.length_toList] at hoffered
  rcases hvalues : (ring.dequeueBatch 1).1 with _ | ⟨value, _ | _⟩
  · obtain hzero : ring.offered = 0 := by simp [hvalues] at hlength; omega
    simp [List.length_eq_zero_iff.mp (hoffered.mp hzero)]
  · simp [← happend, hvalues]
  · simp [hvalues] at hlength
    omega

theorem fst_dequeue (h : ring.WellPlaced) : ring.dequeue.1 = ring.toList.head? := by
  rw [Ring.dequeue]
  simp only [h.dequeueBatch_one]
  cases ring.toList <;> rfl

theorem toList_dequeue (h : ring.WellPlaced) : ring.dequeue.2.toList = ring.toList.tail := by
  have happend := h.dequeueBatch_append 1
  rw [h.dequeueBatch_one] at happend
  rw [Ring.dequeue]
  cases hvalues : ring.toList <;> simp_all

end WellPlaced

end Values

end RideShare.Ring
