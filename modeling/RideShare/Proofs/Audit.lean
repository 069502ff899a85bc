import RideShare.Dispatch.Audit
import RideShare.Proofs.Run

/-!
# What the audit finds

The audit recomputes what the books say from other places. It tallies the seats taken by those who
ride, strikes every vehicle that lacks what is tallied for it, and goes through the backlog and its
histogram. Each part is a loop that stops at the first fault, and each has a closed form where it
does not stop: the tally is a sum for each vehicle, and striking leaves what belongs to no vehicle.

One question the audit never asks is whether everybody in the roster is somewhere. It compares three
numbers instead. That is as good, because by then it is known that those who ride and those who wait
are in the roster, and that nobody does both: they fill the roster if there are as many of them.

So the audit is exact. Books in any state pass it if they balance, and only then, provided that the
fleet and the backlog can be read at all: vehicles have ids of their own, nobody waits twice, and
the index of the backlog knows who waits. No entry of the books is trusted beyond that.

## Main statements

* `Dispatch.auditWith_eq_true_iff`: what the audit asks, loop by loop;
* `Dispatch.audit_exact`: what it finds;
* `Dispatch.Consistent.audit`: consistent books pass;
* `Engine.books_agree`: what the books of every run agree on, and that they pass.
-/

namespace RideShare

namespace Dispatch

variable {books : Dispatch}

/-! ## Tallying the seats taken -/

/-- A tally with the seats of the riding parties listed on top. -/
def tallied (books : Dispatch) (tally : SeatTally) (riding : List (UInt64 × UInt64)) : SeatTally :=
  riding.foldl (fun tally entry ↦ tally.insert entry.2
    (tally.getD entry.2 0 + (books.roster.getD entry.1 0).toUInt64)) tally

/-- There is a tally exactly if everybody listed is in the books and does not wait. -/
theorem seatsTaken?_eq_some_iff {riding : List (UInt64 × UInt64)} {tally taken : SeatTally} :
    books.seatsTaken? tally riding = some taken ↔
      (∀ entry ∈ riding, books.Knows entry.1 ∧ books.backlog.contains entry.1 = false) ∧
        books.tallied tally riding = taken := by
  induction riding generalizing tally with
  | nil => simp [seatsTaken?, tallied]
  | cons entry rest ih =>
    obtain ⟨id, vehicle⟩ := entry
    rw [List.forall_mem_cons, Knows, Std.HashMap.mem_iff_isSome_getElem?, seatsTaken?]
    cases hsize : books.roster[id]? with
    | none => simp
    | some size =>
      have hroster : books.roster.getD id 0 = size := by
        rw [Std.HashMap.getD_eq_getD_getElem?, hsize, Option.getD_some]
      rw [tallied, List.foldl_cons, ← tallied, hroster]
      cases hwait : books.backlog.contains id with
      | true => simp
      | false => simpa using ih

/-- What is tallied for a vehicle is the number of people listed on it. -/
theorem getD_tallied (books : Dispatch) (tally : SeatTally) (riding : List (UInt64 × UInt64))
    (vehicle : UInt64) :
    (books.tallied tally riding).getD vehicle 0 = tally.getD vehicle 0 + UInt64.ofNat
      ((riding.filter fun entry ↦ entry.2 = vehicle).map fun entry ↦ books.sizeOf entry.1).sum := by
  induction riding generalizing tally with
  | nil => simp [tallied]
  | cons entry rest ih =>
    refine (ih _).trans ?_
    rw [Std.HashMap.getD_insert, List.filter_cons]
    by_cases hvehicle : entry.2 = vehicle
    · simp [hvehicle, sizeOf, UInt64.ofNat_add, UInt64.add_assoc]
    · simp [hvehicle]

theorem mem_tallied (books : Dispatch) (tally : SeatTally) (riding : List (UInt64 × UInt64))
    (vehicle : UInt64) : vehicle ∈ books.tallied tally riding ↔
      vehicle ∈ tally ∨ ∃ entry ∈ riding, entry.2 = vehicle := by
  induction riding generalizing tally with
  | nil => simp [tallied]
  | cons entry rest ih =>
    refine (ih _).trans ?_
    rw [Std.HashMap.mem_insert, beq_iff_eq, List.exists_mem_cons_iff, or_assoc, or_left_comm]

/-! ## Striking the vehicles -/

/-- Vehicles are struck one by one exactly if each lacks what is tallied for it. -/
theorem strikeVehicles?_eq_some_iff {slots : List Slot} {tally struck : SeatTally}
    (hnodup : (slots.map fun slot ↦ slot.vehicle.id).Nodup) :
    strikeVehicles? tally slots = some struck ↔
      (∀ slot ∈ slots, slot.available ≤ slot.vehicle.capacity ∧
        tally.getD slot.vehicle.id 0 = (slot.vehicle.capacity - slot.available).toUInt64) ∧
      slots.foldl (fun tally slot ↦ tally.erase slot.vehicle.id) tally = struck := by
  induction slots generalizing tally with
  | nil => simp [strikeVehicles?]
  | cons slot rest ih =>
    rw [List.map_cons, List.nodup_cons] at hnodup
    rw [List.forall_mem_cons, List.foldl_cons, strikeVehicles?]
    -- The vehicles still to be struck have other ids, so their seats are still tallied.
    have hkept {other : Slot} (hother : other ∈ rest) :
        (tally.erase slot.vehicle.id).getD other.vehicle.id 0 = tally.getD other.vehicle.id 0 := by
      have hne : slot.vehicle.id ≠ other.vehicle.id := fun heq ↦
        hnodup.1 (heq ▸ List.mem_map_of_mem hother)
      rw [Std.HashMap.getD_erase, if_neg (by simpa using hne)]
    by_cases hlt : slot.vehicle.capacity < slot.available
    · simp [hlt, UInt32.not_le.mpr hlt]
    by_cases htally :
        tally.getD slot.vehicle.id 0 = (slot.vehicle.capacity - slot.available).toUInt64
    · rw [if_neg hlt, htally]
      simp only [bne_self_eq_false, Bool.false_eq_true, if_false, ih hnodup.2]
      refine and_congr_left fun _ ↦ ?_
      simp only [UInt32.not_lt.mp hlt, true_and]
      exact forall₂_congr fun other hother ↦ by rw [hkept hother]
    · rw [if_neg hlt]
      simp only [bne_iff_ne.mpr htally, if_true, reduceCtorEq, htally, and_false, false_and]

/-- Only seats on vehicles that are not listed remain. -/
theorem mem_foldl_erase (slots : List Slot) (tally : SeatTally) (vehicle : UInt64) :
    vehicle ∈ slots.foldl (fun tally slot ↦ tally.erase slot.vehicle.id) tally ↔
      vehicle ∈ tally ∧ ∀ slot ∈ slots, slot.vehicle.id ≠ vehicle := by
  induction slots generalizing tally with
  | nil => simp
  | cons slot rest ih =>
    refine (ih _).trans ?_
    rw [Std.HashMap.mem_erase, List.forall_mem_cons, beq_eq_false_iff_ne, and_comm (a := _ ≠ _),
      and_assoc]

/-! ## The histogram -/

/-- The histogram counts the parties of each size. -/
theorem getD_histogramOf (parties : List Party) {size : Nat} (hsize : size < seatLevels) :
    (histogramOf parties).getD size 0 = parties.countP fun party ↦ party.size.toNat = size := by
  induction parties using List.reverseRecOn with
  | nil => simp [histogramOf, hsize]
  | append_singleton parties party ih =>
    have hsizes : (histogramOf parties).size = seatLevels := by
      refine List.foldlRecOn (motive := fun counts : Array Nat ↦ counts.size = seatLevels) parties _
        Array.size_replicate fun counts hcounts party _ ↦ ?_
      rw [Array.size_modify, hcounts]
    rw [histogramOf, List.foldl_append, List.foldl_cons, List.foldl_nil, ← histogramOf,
      getD_modify (fun hparty ↦ by rwa [hparty, hsizes]), ih, List.countP_append]
    by_cases hparty : party.size.toNat = size <;> simp [hparty]

theorem histogramAgrees_iff (parties : List Party) :
    books.histogramAgrees parties = true ↔ ∀ size < seatLevels,
      parties.countP (fun party ↦ party.size.toNat = size) =
        books.backlog.countOfSize size.toUInt32 := by
  rw [histogramAgrees, List.all_eq_true]
  refine forall_congr' fun size ↦ ?_
  rw [List.mem_range, beq_iff_eq]
  exact forall_congr' fun hsize ↦ by rw [getD_histogramOf parties hsize]

theorem waitsProperly_iff {party : Party} : books.waitsProperly party = true ↔
    books.roster[party.id]? = some party.size ∧ ∀ vehicle, ¬ books.Rides party.id vehicle := by
  rw [waitsProperly, Bool.and_eq_true, beq_iff_eq, Bool.not_eq_true', Seating.contains_eq_isSome,
    Option.isSome_eq_false_iff, Option.isNone_iff_eq_none, Option.eq_none_iff_forall_ne_some]
  rfl

/-! ## Counting the parties -/

/-- If those who ride and those who wait are in the roster, and nobody does both, then the numbers
tell whether anybody else is in the roster. -/
theorem size_roster_eq_iff (hnodup : (books.waiting.map Party.id).Nodup)
    (hknown : ∀ id, (∃ vehicle, books.Rides id vehicle) ∨ books.Waits id → books.Knows id)
    (hapart : ∀ id vehicle, books.Rides id vehicle → ¬ books.Waits id) :
    books.roster.size = books.seating.size + books.waiting.length ↔
      ∀ id, books.Knows id → (∃ vehicle, books.Rides id vehicle) ∨ books.Waits id := by
  have hrides (id : UInt64) :
      id ∈ books.seating.vehicles.keys ↔ ∃ vehicle, books.Rides id vehicle := by
    rw [Std.HashMap.mem_keys, Std.HashMap.mem_iff_isSome_getElem?, Option.isSome_iff_exists]
    rfl
  have hplaced (id : UInt64) : id ∈ books.seating.vehicles.keys ++ books.waiting.map Party.id ↔
      (∃ vehicle, books.Rides id vehicle) ∨ books.Waits id := by
    rw [List.mem_append, hrides, List.mem_map]
    rfl
  have hdisjoint : (books.seating.vehicles.keys ++ books.waiting.map Party.id).Nodup := by
    refine List.nodup_append.mpr ⟨Std.HashMap.nodup_keys, hnodup, ?_⟩
    rintro id hride other hwait rfl
    obtain ⟨vehicle, hride⟩ := (hrides id).mp hride
    exact hapart id vehicle hride (List.mem_map.mp hwait)
  have hsub : books.seating.vehicles.keys ++ books.waiting.map Party.id ⊆ books.roster.keys :=
    fun id hid ↦ Std.HashMap.mem_keys.mpr (hknown id ((hplaced id).mp hid))
  have hlength : (books.seating.vehicles.keys ++ books.waiting.map Party.id).length =
      books.seating.size + books.waiting.length := by
    rw [List.length_append, Std.HashMap.length_keys, List.length_map]
    rfl
  rw [← Std.HashMap.length_keys, ← hlength]
  constructor
  · intro hcount id hknows
    have hperm := (List.subperm_of_subset hdisjoint hsub).perm_of_length_le hcount.le
    exact (hplaced id).mp (hperm.mem_iff.mpr (Std.HashMap.mem_keys.mpr hknows))
  · intro hall
    have hperm : books.roster.keys.Perm
        (books.seating.vehicles.keys ++ books.waiting.map Party.id) := by
      refine (List.perm_ext_iff_of_nodup Std.HashMap.nodup_keys hdisjoint).mpr fun id ↦ ?_
      exact ⟨fun hid ↦ (hplaced id).mpr (hall id (Std.HashMap.mem_keys.mp hid)), (hsub ·)⟩
    exact hperm.length_eq

/-! ## The audit -/

/-- The audit asks these questions, whatever the order in which the riding parties are listed. -/
theorem auditWith_eq_true_iff {riding : List (UInt64 × UInt64)}
    (hvehicles : (books.fleet.slots.toList.map fun slot ↦ slot.vehicle.id).Nodup) :
    books.auditWith riding = true ↔
      (∀ entry ∈ riding, books.Knows entry.1 ∧ books.backlog.contains entry.1 = false) ∧
      (∀ slot ∈ books.fleet.slots, slot.available ≤ slot.vehicle.capacity ∧
        (books.tallied ∅ riding).getD slot.vehicle.id 0 =
          (slot.vehicle.capacity - slot.available).toUInt64) ∧
      (∀ entry ∈ riding, ∃ slot ∈ books.fleet.slots, slot.vehicle.id = entry.2) ∧
      (∀ party ∈ books.waiting, books.waitsProperly party = true) ∧
      books.histogramAgrees books.waiting = true ∧
      books.roster.size = books.seating.size + books.waiting.length := by
  have hstruck : (books.fleet.slots.toList.foldl
      (fun (tally : SeatTally) slot ↦ tally.erase slot.vehicle.id)
      (books.tallied ∅ riding)).isEmpty = true ↔
      ∀ entry ∈ riding, ∃ slot ∈ books.fleet.slots, slot.vehicle.id = entry.2 := by
    rw [Std.HashMap.isEmpty_iff_forall_not_mem]
    simp only [mem_foldl_erase, mem_tallied, Std.HashMap.not_mem_empty, false_or, not_and,
      forall_exists_index, and_imp, not_forall, not_not, Array.mem_toList_iff, exists_prop]
    exact ⟨fun h entry hentry ↦ h _ entry hentry rfl,
      fun h _ entry hentry heq ↦ heq ▸ h entry hentry⟩
  rw [auditWith]
  cases htaken : books.seatsTaken? ∅ riding with
  | none =>
    rw [Bool.false_eq_true, false_iff]
    intro h
    exact Option.some_ne_none _ ((seatsTaken?_eq_some_iff.mpr ⟨h.1, rfl⟩).symm.trans htaken)
  | some taken =>
    obtain ⟨hriding, rfl⟩ := seatsTaken?_eq_some_iff.mp htaken
    cases hstrike : strikeVehicles? (books.tallied ∅ riding) books.fleet.slots.toList with
    | none =>
      simp only [hstrike, Bool.false_eq_true, false_iff]
      intro h
      have hslots := (strikeVehicles?_eq_some_iff hvehicles).mpr
        ⟨fun slot hslot ↦ h.2.1 slot (Array.mem_toList_iff.mp hslot), rfl⟩
      exact Option.some_ne_none _ (hslots.symm.trans hstrike)
    | some struck =>
      obtain ⟨hslots, rfl⟩ := (strikeVehicles?_eq_some_iff hvehicles).mp hstrike
      simp only [hstrike, Bool.and_eq_true, hstruck, List.all_eq_true, beq_iff_eq, and_assoc]
      exact ⟨fun h ↦ ⟨hriding, fun slot hslot ↦ hslots slot (Array.mem_toList_iff.mpr hslot), h⟩,
        fun h ↦ h.2.2⟩

/-- The places of the books agree. Unlike `Consistent`, this says nothing of how the fleet and the
backlog are built, nor of the sizes that parties and vehicles have. -/
structure Balanced (books : Dispatch) : Prop where
  /-- No more seats are free than there are. -/
  available_le : ∀ slot ∈ books.fleet.slots, slot.available ≤ slot.vehicle.capacity
  /-- The other seats are taken by the people on the vehicle. -/
  people_eq : ∀ slot ∈ books.fleet.slots,
    slot.vehicle.capacity.toNat - slot.available.toNat = books.peopleOn slot.vehicle.id
  /-- Parties ride on vehicles of the fleet. -/
  exists_slot : ∀ id vehicle, books.Rides id vehicle →
    ∃ slot ∈ books.fleet.slots, slot.vehicle.id = vehicle
  /-- Whoever rides is in the roster. -/
  knows_of_rides : ∀ id vehicle, books.Rides id vehicle → books.Knows id
  /-- Whoever waits is in the roster with the same size. -/
  roster_of_waiting : ∀ party ∈ books.waiting, books.roster[party.id]? = some party.size
  /-- Nobody rides and waits. -/
  not_waits : ∀ id vehicle, books.Rides id vehicle → ¬ books.Waits id
  /-- Whoever is in the roster rides or waits. -/
  rides_or_waits : ∀ id, books.Knows id → (∃ vehicle, books.Rides id vehicle) ∨ books.Waits id
  /-- The histogram counts those who wait, by their sizes. -/
  countOfSize_eq : ∀ size : UInt32, size ≤ maxSeats →
    books.backlog.countOfSize size = books.waiting.countP (·.size = size)

theorem Balanced.knows (h : books.Balanced) (id : UInt64) :
    (∃ vehicle, books.Rides id vehicle) ∨ books.Waits id → books.Knows id := by
  rintro (⟨vehicle, hride⟩ | ⟨party, hparty, rfl⟩)
  · exact h.knows_of_rides id vehicle hride
  · rw [Knows, Std.HashMap.mem_iff_isSome_getElem?, h.roster_of_waiting party hparty]
    rfl

theorem histogramAgrees_waiting_iff : books.histogramAgrees books.waiting = true ↔
    ∀ size : UInt32, size ≤ maxSeats →
      books.backlog.countOfSize size = books.waiting.countP (·.size = size) := by
  rw [histogramAgrees_iff]
  constructor
  · intro h size hsize
    have hlt : size.toNat < seatLevels := Nat.lt_succ_of_le (UInt32.le_iff_toNat_le.mp hsize)
    have hcount := h size.toNat hlt
    rw [Nat.toUInt32_eq, UInt32.ofNat_toNat] at hcount
    rw [← hcount]
    simp only [UInt32.toNat_inj]
  · intro h size hsize
    have hword : size.toUInt32.toNat = size :=
      Nat.mod_eq_of_lt (Nat.lt_trans hsize (by decide))
    rw [h size.toUInt32 (UInt32.le_iff_toNat_le.mpr (hword.le.trans (Nat.le_of_lt_succ hsize)))]
    simp only [← UInt32.toNat_inj, hword]

/-- What the audit tallies for a vehicle is the number of people on it, if that fits a word. -/
theorem tallied_eq_iff {riding : List (UInt64 × UInt64)} (hperm : riding.Perm books.seating.entries)
    {slot : Slot} (hle : slot.available ≤ slot.vehicle.capacity)
    (hpeople : books.peopleOn slot.vehicle.id < 2 ^ 64) :
    (books.tallied ∅ riding).getD slot.vehicle.id 0 =
        (slot.vehicle.capacity - slot.available).toUInt64 ↔
      slot.vehicle.capacity.toNat - slot.available.toNat = books.peopleOn slot.vehicle.id := by
  have hsum : ((riding.filter fun entry ↦ entry.2 = slot.vehicle.id).map
      fun entry ↦ books.sizeOf entry.1).sum = books.peopleOn slot.vehicle.id :=
    ((hperm.filter _).map _).sum_nat
  rw [getD_tallied, Std.HashMap.getD_empty, UInt64.zero_add, hsum, ← UInt64.toNat_inj,
    UInt64.toNat_ofNat_of_lt' hpeople, UInt32.toNat_toUInt64, UInt32.toNat_sub_of_le _ _ hle,
    eq_comm]

/-- The audit is passed by balanced books, and by no others. -/
theorem auditWith_iff_balanced
    (hvehicles : (books.fleet.slots.toList.map fun slot ↦ slot.vehicle.id).Nodup)
    (hwaiting : (books.waiting.map Party.id).Nodup)
    (hindex : ∀ id, books.backlog.contains id = true ↔ books.Waits id)
    (hpeople : ∀ vehicle, books.peopleOn vehicle < 2 ^ 64)
    {riding : List (UInt64 × UInt64)} (hperm : riding.Perm books.seating.entries) :
    books.auditWith riding = true ↔ books.Balanced := by
  have hriding {P : UInt64 → UInt64 → Prop} :
      (∀ entry ∈ riding, P entry.1 entry.2) ↔
        ∀ id vehicle, books.Rides id vehicle → P id vehicle := by
    simp only [hperm.mem_iff, Prod.forall, Seating.mem_entries_iff]
    rfl
  have hout (id : UInt64) : books.backlog.contains id = false ↔ ¬ books.Waits id := by
    rw [← hindex, Bool.not_eq_true]
  rw [auditWith_eq_true_iff hvehicles, histogramAgrees_waiting_iff]
  simp only [waitsProperly_iff, hout]
  rw [hriding (P := fun id _ ↦ books.Knows id ∧ ¬ books.Waits id),
    hriding (P := fun _ vehicle ↦ ∃ slot ∈ books.fleet.slots, slot.vehicle.id = vehicle)]
  constructor
  · rintro ⟨hrides, hslots, hfleet, hwaits, hhistogram, hcount⟩
    have hknown (id : UInt64) :
        (∃ vehicle, books.Rides id vehicle) ∨ books.Waits id → books.Knows id := by
      rintro (⟨vehicle, hride⟩ | ⟨party, hparty, rfl⟩)
      · exact (hrides id vehicle hride).1
      · rw [Knows, Std.HashMap.mem_iff_isSome_getElem?, (hwaits party hparty).1]
        rfl
    have hapart (id vehicle : UInt64) (hride : books.Rides id vehicle) : ¬ books.Waits id :=
      (hrides id vehicle hride).2
    exact
      { available_le := fun slot hslot ↦ (hslots slot hslot).1
        people_eq := fun slot hslot ↦
          (tallied_eq_iff hperm (hslots slot hslot).1 (hpeople _)).mp (hslots slot hslot).2
        exists_slot := hfleet
        knows_of_rides := fun id vehicle hride ↦ (hrides id vehicle hride).1
        roster_of_waiting := fun party hparty ↦ (hwaits party hparty).1
        not_waits := hapart
        rides_or_waits := (size_roster_eq_iff hwaiting hknown hapart).mp hcount
        countOfSize_eq := hhistogram }
  · intro h
    refine ⟨fun id vehicle hride ↦ ?_, fun slot hslot ↦ ?_, h.exists_slot, fun party hparty ↦ ?_,
      h.countOfSize_eq, ?_⟩
    · exact ⟨h.knows_of_rides id vehicle hride, h.not_waits id vehicle hride⟩
    · have hle := h.available_le slot hslot
      exact ⟨hle, (tallied_eq_iff hperm hle (hpeople _)).mpr (h.people_eq slot hslot)⟩
    · exact ⟨h.roster_of_waiting party hparty,
        fun vehicle hride ↦ h.not_waits _ vehicle hride ⟨party, hparty, rfl⟩⟩
    · exact (size_roster_eq_iff hwaiting h.knows h.not_waits).mpr h.rides_or_waits

namespace Consistent

/-- The parties in the books are counted once each, as riding or as waiting. -/
theorem size_roster (h : books.Consistent) :
    books.roster.size = books.seating.size + books.waiting.length :=
  (size_roster_eq_iff h.backlog.nodup_ids (fun id ↦ (h.knows_iff id).mpr)
    fun _ _ ↦ h.not_waits).mpr fun id ↦ (h.knows_iff id).mp

theorem balanced (h : books.Consistent) : books.Balanced where
  available_le slot hslot := (h.fleet.proper slot hslot).available_le
  people_eq slot hslot := by
    have hseats := h.seats (h.fleet.mem_slots_iff.mp hslot)
    omega
  exists_slot id vehicle hride := by
    obtain ⟨slot, hslot⟩ := h.exists_slot hride
    exact ⟨slot, h.fleet.find?_eq_some_iff.mp hslot⟩
  knows_of_rides id vehicle hride := (h.knows_iff id).mpr (.inl ⟨vehicle, hride⟩)
  roster_of_waiting := h.roster_of_waiting
  not_waits _ _ := h.not_waits
  rides_or_waits id := (h.knows_iff id).mp
  countOfSize_eq size _ := h.backlog.countOfSize_eq size

/-- The people on a vehicle fit on it, or there is no such vehicle and nobody rides on it. -/
theorem peopleOn_lt (h : books.Consistent) (vehicle : UInt64) :
    books.peopleOn vehicle < 2 ^ 64 := by
  cases hslot : books.fleet.find? vehicle with
  | some slot =>
    have hseats := h.seats hslot
    have := slot.vehicle.capacity.toNat_lt
    omega
  | none =>
    have hnobody : books.seating.entries.filter (fun entry ↦ entry.2 = vehicle) = [] := by
      rw [List.filter_eq_nil_iff]
      rintro entry hentry hvehicle
      obtain ⟨slot, hfound⟩ :=
        h.exists_slot ((books.seating.mem_entries_iff entry.1 entry.2).mp hentry)
      rw [of_decide_eq_true hvehicle, hslot] at hfound
      exact absurd hfound (Option.some_ne_none slot).symm
    rw [peopleOn, Seating.peopleOn, hnobody, List.map_nil, List.sum_nil]
    exact Nat.two_pow_pos 64

theorem audit (h : books.Consistent) : books.audit = true :=
  (auditWith_iff_balanced h.fleet.nodup_vehicle_ids h.backlog.nodup_ids
    (fun _ ↦ h.waits_iff.symm) h.peopleOn_lt (.refl _)).mpr h.balanced

end Consistent

/-- The audit is exact, whatever state the books are in. It says that they agree if they do, and
only then, and the order in which the riding parties are listed makes no difference to it.

Nothing has to be assumed of the numbers of parties. They are compared only when it is known that
those who ride and those who wait are some of those in the roster, each counted once, so that a sum
that is compared with the size of the roster is never larger than it. -/
theorem audit_exact
    (hvehicles : (books.fleet.slots.toList.map fun slot ↦ slot.vehicle.id).Nodup)
    (hwaiting : (books.waiting.map Party.id).Nodup)
    (hindex : ∀ id, books.backlog.contains id = true ↔ books.Waits id)
    (hpeople : (books.seating.entries.map fun entry ↦ books.sizeOf entry.1).sum < 2 ^ 64) :
    (books.audit = true ↔ books.Balanced) ∧
      ∀ riding, riding.Perm books.seating.entries → books.auditWith riding = books.audit := by
  have hfew (vehicle : UInt64) : books.peopleOn vehicle < 2 ^ 64 :=
    (((List.filter_sublist).map _).sum_le_sum fun _ _ ↦ Nat.zero_le _).trans_lt hpeople
  have hexact {riding : List (UInt64 × UInt64)} (hperm : riding.Perm books.seating.entries) :
      books.auditWith riding = true ↔ books.Balanced :=
    auditWith_iff_balanced hvehicles hwaiting hindex hfew hperm
  refine ⟨hexact (.refl _), fun riding hperm ↦ ?_⟩
  rw [Bool.eq_iff_iff, hexact hperm]
  exact (hexact (.refl _)).symm

/-- One party rides, one waits, and one has been lost. -/
theorem audit_exact_lost :
    let books : Dispatch :=
      { fleet := { slots := #[⟨⟨1, 4⟩, 2⟩] }
        backlog := ((Backlog.ofReserve 0).enqueue ⟨9, 5⟩).2
        seating := ({} : Seating).set 7 1
        roster := ((∅ : Std.HashMap UInt64 UInt32).insert 7 2).insert 8 3 |>.insert 9 5 }
    (books.fleet.slots.toList.map fun slot ↦ slot.vehicle.id).Nodup ∧
      (books.waiting.map Party.id).Nodup ∧
      (∀ id, books.backlog.contains id = true ↔ books.Waits id) ∧
      (books.seating.entries.map fun entry ↦ books.sizeOf entry.1).sum < 2 ^ 64 ∧
      ¬ books.Balanced ∧ books.audit = false := by
  intro books
  have hbacklog : books.backlog.Sound := (Backlog.sound_ofReserve 0).enqueue ⟨9, 5⟩
  have hwaiting : books.waiting = [⟨9, 5⟩] := by
    subst books
    cbv
  have hpeople : (books.seating.entries.map fun entry ↦ books.sizeOf entry.1).sum < 2 ^ 64 := by
    have hrider : books.seating.entries.Perm ((7, 1) :: ({} : Seating).entries) :=
      Seating.entries_perm (by simp) (Seating.get?_set {} 7 1)
    rw [(hrider.map fun entry ↦ books.sizeOf entry.1).sum_nat]
    simp [sizeOf, books, Std.HashMap.getD_insert]
  have hout (vehicle : UInt64) : ¬ books.Rides 8 vehicle := by
    simp [books, Rides]
  have hlost : ¬ books.Balanced := by
    intro h
    rcases h.rides_or_waits 8 (by simp [books, Knows]) with ⟨vehicle, hride⟩ | ⟨party, hparty, hid⟩
    · exact hout vehicle hride
    · rw [hwaiting, List.mem_singleton] at hparty
      subst hparty
      exact absurd hid (by decide)
  have hexact := @audit_exact books (by decide) hbacklog.nodup_ids
    (fun _ ↦ hbacklog.contains_iff) hpeople
  exact ⟨by decide, hbacklog.nodup_ids, fun _ ↦ hbacklog.contains_iff, hpeople, hlost,
    Bool.eq_false_iff.mpr fun h ↦ hlost (hexact.1.mp h)⟩

end Dispatch

/-- What the books of every run agree on at every point. -/
theorem Engine.books_agree (reserve : Nat) (operations : List Operation) :
    let books := ((ofReserve reserve).run operations).books
    -- A seat is free or taken by somebody on the vehicle, and everybody rides on a vehicle.
    (∀ slot ∈ books.fleet.slots,
      slot.available ≤ slot.vehicle.capacity ∧ slot.vehicle.capacity ≤ 6 ∧
        slot.vehicle.capacity.toNat - slot.available.toNat = books.peopleOn slot.vehicle.id) ∧
    (∀ id vehicle, books.Rides id vehicle →
      ∃ slot ∈ books.fleet.slots, slot.vehicle.id = vehicle) ∧
    -- A party in the books either rides or waits. It waits once, with the size it is known by.
    (∀ id, books.Knows id ↔ (∃ vehicle, books.Rides id vehicle) ∨ books.Waits id) ∧
    (∀ id vehicle, books.Rides id vehicle → ¬ books.Waits id) ∧
    (books.waiting.map Party.id).Nodup ∧
    (∀ party ∈ books.waiting, books.roster[party.id]? = some party.size) ∧
    -- The histogram counts those who wait.
    (∀ size, books.backlog.countOfSize size = books.waiting.countP (·.size = size)) ∧
    books.audit = true := by
  intro books
  have h : books.Consistent := (orderly_run reserve operations).toConsistent
  refine ⟨fun slot hslot ↦ ?_, fun id vehicle hride ↦ ?_, h.knows_iff, fun _ _ ↦ h.not_waits,
    h.backlog.nodup_ids, h.roster_of_waiting, h.backlog.countOfSize_eq, h.audit⟩
  · have hproper := h.fleet.proper slot hslot
    have hseats := h.seats (h.fleet.mem_slots_iff.mp hslot)
    refine ⟨hproper.available_le, UInt32.le_iff_toNat_le.mpr hproper.toNat_le.2.2, ?_⟩
    omega
  · obtain ⟨slot, hslot⟩ := h.exists_slot hride
    obtain ⟨hmem, hid⟩ := h.fleet.find?_eq_some_iff.mp hslot
    exact ⟨slot, hmem, hid⟩

end RideShare
