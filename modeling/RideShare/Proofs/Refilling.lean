import RideShare.Proofs.Frame
import RideShare.Proofs.Refusals

/-!
# Who gets the seats of a party that alights

The seats that get free are handed out to those who wait in the order of their arrival, and a party
takes them exactly if the parties seated before it have left enough. Nothing better can be said for
those who came first: of all ways to hand out the seats, compared party by party from the oldest on,
this one is the best.

The walk that chooses them stops where no seat is left, or where the histogram shows nobody small
enough, and the histogram still counts those who have been chosen already. The choice is
nevertheless that of a walk to the very end, and each of those chosen gets their seats.

## Main statements

* `bestFilling_fill` and `BestFilling.eq_fill`: the plain walk over everybody makes the best choice,
  and there is no other;
* `Dispatch.Consistent.reseated`: what the end of a ride changes;
* `Engine.reseats_best_filling`: both, at any point of any run.
-/

namespace RideShare

/-! ## The best choice -/

/-- For each of the parties, whether it is taken. -/
def pattern (parties taken : List Party) : List Bool := parties.map (decide <| · ∈ taken)

/-- The parties taken from those waiting on a number of seats are the best choice for those who came
first. -/
structure BestFilling (seats : Nat) (waiting taken : List Party) : Prop where
  /-- They wait, and are taken in the order of their arrival. -/
  sublist : taken.Sublist waiting
  /-- There are seats for all of them. -/
  headcount_le : headcount taken ≤ seats
  /-- A party is taken exactly if those taken before it have left enough seats. -/
  mem_iff : ∀ front party back, waiting = front ++ party :: back →
    (party ∈ taken ↔ party.size.toNat + headcount (front.filter (· ∈ taken)) ≤ seats)
  /-- Any others for whom there are seats are no better, where the oldest party about which the two
  differ decides. -/
  pattern_le : ∀ others : List Party, others.Sublist waiting → headcount others ≤ seats →
    pattern waiting others ≤ pattern waiting taken

section Filling

variable {seats : Nat} {parties front back others : List Party} {party : Party}

/-- Those who come later have no part in who is taken of those before. -/
theorem filter_mem_fill (hnodup : (front ++ back).Nodup) :
    front.filter (· ∈ fill seats (front ++ back)) = fill seats front := by
  have hfront := (List.nodup_append.mp hnodup).1
  have hapart := (List.nodup_append.mp hnodup).2.2
  rw [← filter_mem_of_sublist (fill_sublist seats front) hfront, fill_append]
  refine List.filter_congr fun other hother ↦ ?_
  have hout : other ∉ fill (seats - headcount (fill seats front)) back :=
    fun hmem ↦ hapart other hother other ((fill_sublist _ _).subset hmem) rfl
  simp [hout]

theorem mem_fill_iff (hnodup : (front ++ party :: back).Nodup) :
    party ∈ fill seats (front ++ party :: back) ↔
      party.size.toNat + headcount (fill seats front) ≤ seats := by
  constructor
  · intro hmem
    by_contra hlt
    have hout : party ∉ fill seats front := fun hmem ↦
      (List.nodup_append.mp hnodup).2.2 party ((fill_sublist _ _).subset hmem) party (by simp) rfl
    have hout' : party ∉ back := (List.nodup_cons.mp (List.nodup_append.mp hnodup).2.1).1
    have hle := headcount_fill_le seats front
    rw [fill_append, fill_cons_of_lt (by omega), List.mem_append] at hmem
    rcases hmem with hmem | hmem
    · exact hout hmem
    · exact hout' ((fill_sublist _ _).subset hmem)
  · intro hle
    by_contra hout
    have := lt_size_of_notMem_fill hout
    omega

@[simp] theorem pattern_cons (party : Party) (parties taken : List Party) :
    pattern (party :: parties) taken = decide (party ∈ taken) :: pattern parties taken :=
  rfl

theorem pattern_cons_of_notMem (h : party ∉ parties) (taken : List Party) :
    pattern parties (party :: taken) = pattern parties taken := by
  refine List.map_congr_left fun other hother ↦ ?_
  have hne : other ≠ party := fun heq ↦ h (heq ▸ hother)
  simp [hne]

/-- By induction on the parties. At the first one, either both take it or both leave it, or else
only the walk does, which decides the comparison. -/
theorem pattern_le_fill (hnodup : parties.Nodup) (hsub : others.Sublist parties)
    (hroom : headcount others ≤ seats) :
    pattern parties others ≤ pattern parties (fill seats parties) := by
  induction parties generalizing seats others with
  | nil => exact le_refl []
  | cons party rest ih =>
    obtain ⟨hout, hrest⟩ := List.nodup_cons.mp hnodup
    cases hsub with
    | cons _ hsub =>
      have hskip : party ∉ others := fun hmem ↦ hout (hsub.subset hmem)
      rcases Nat.lt_or_ge seats party.size.toNat with hlt | hle
      · have hskip' : party ∉ fill seats rest := fun hmem ↦ hout ((fill_sublist _ _).subset hmem)
        rw [fill_cons_of_lt hlt, pattern_cons, pattern_cons, decide_eq_false hskip,
          decide_eq_false hskip']
        exact List.cons_le_cons false (ih hrest hsub hroom)
      · rw [fill_cons_of_le hle, pattern_cons, pattern_cons, decide_eq_false hskip,
          decide_eq_true List.mem_cons_self]
        exact le_of_lt (List.Lex.rel Bool.false_lt_true)
    | @cons_cons others _ _ hsub =>
      rw [headcount_cons] at hroom
      rw [fill_cons_of_le (by omega), pattern_cons, pattern_cons, decide_eq_true List.mem_cons_self,
        decide_eq_true List.mem_cons_self, pattern_cons_of_notMem hout, pattern_cons_of_notMem hout]
      exact List.cons_le_cons true (ih hrest hsub (Nat.le_sub_of_add_le' hroom))

theorem bestFilling_fill (seats : Nat) (hnodup : parties.Nodup) :
    BestFilling seats parties (fill seats parties) where
  sublist := fill_sublist seats parties
  headcount_le := headcount_fill_le seats parties
  mem_iff := by
    rintro front party back rfl
    rw [mem_fill_iff hnodup, filter_mem_fill hnodup]
  pattern_le _ hsub hroom := pattern_le_fill hnodup hsub hroom

/-- There is no other best choice. -/
theorem BestFilling.eq_fill {taken : List Party} (h : BestFilling seats parties taken)
    (hnodup : parties.Nodup) : taken = fill seats parties := by
  have hbest := bestFilling_fill seats hnodup
  have hpattern : pattern parties taken = pattern parties (fill seats parties) :=
    le_antisymm (hbest.pattern_le taken h.sublist h.headcount_le)
      (h.pattern_le _ hbest.sublist hbest.headcount_le)
  calc taken
      = parties.filter (· ∈ taken) := (filter_mem_of_sublist h.sublist hnodup).symm
    _ = parties.filter (· ∈ fill seats parties) :=
      List.filter_congr fun party hparty ↦ List.map_inj_left.mp hpattern party hparty
    _ = fill seats parties := filter_mem_of_sublist hbest.sublist hnodup

end Filling

/-! ## The end of a ride -/

namespace Dispatch

/-- A party has left its vehicle, and the parties taken have got on. -/
structure Reseated (books books' : Dispatch) (rider : Party) (vehicle : UInt64)
    (taken : List Party) : Prop where
  /-- The party that left is forgotten. -/
  unknown : books'.whereabouts rider.id = .unknown
  /-- Those taken ride on the vehicle, and everybody else where they did. -/
  rides_iff : ∀ id other, books'.Rides id other ↔
    id ∈ taken.map Party.id ∧ other = vehicle ∨ id ≠ rider.id ∧ books.Rides id other
  /-- Those taken do not wait any more, and everybody else stands where they did. -/
  waiting_eq : books'.waiting = books.waiting.filter (· ∉ taken)
  /-- The vehicle has the seats of the party that left, and lacks those of the others. -/
  availableSeats_add : (books'.availableSeats vehicle).toNat + headcount taken =
    (books.availableSeats vehicle).toNat + rider.size.toNat
  /-- Nothing has happened to any other vehicle. -/
  sameBut : books.fleet.SameBut books'.fleet vehicle
  /-- Everybody else has the size they had. -/
  roster_eq : ∀ id, id ≠ rider.id → books'.roster[id]? = books.roster[id]?

theorem Reseated.congr {books books' books'' : Dispatch} {rider : Party} {vehicle : UInt64}
    {taken : List Party} (h : books.Reseated books' rider vehicle taken)
    (same : books'.SameRecords books'') : books.Reseated books'' rider vehicle taken where
  unknown := (same.whereabouts_eq rider.id).trans h.unknown
  rides_iff := by simpa only [Rides, same.seating] using h.rides_iff
  waiting_eq := by simpa only [waiting, same.backlog] using h.waiting_eq
  availableSeats_add := by simpa only [availableSeats, same.fleet] using h.availableSeats_add
  sameBut := same.fleet ▸ h.sameBut
  roster_eq := by simpa only [same.roster] using h.roster_eq

namespace Consistent

variable {books : Dispatch} {rider : Party} {slot : Slot}

/-- The seats free on the vehicle when the party has left. -/
theorem toNat_freed_eq (h : books.Consistent) (hride : books.Rides rider.id slot.vehicle.id)
    (hslot : books.fleet.find? slot.vehicle.id = some slot)
    (hsize : books.roster[rider.id]? = some rider.size) :
    (slot.freed rider.size).toNat =
      (books.availableSeats slot.vehicle.id).toNat + rider.size.toNat := by
  rw [availableSeats, Fleet.availableOf_eq hslot]
  exact h.toNat_freed hride hslot hsize

theorem reseated_refill (h : books.Consistent) (hride : books.Rides rider.id slot.vehicle.id)
    (hslot : books.fleet.find? slot.vehicle.id = some slot)
    (hsize : books.roster[rider.id]? = some rider.size) :
    books.Reseated
      (((books.alight rider slot).refill (slot.withAvailable (slot.freed rider.size))).books
        (books.roster.erase rider.id))
      rider slot.vehicle.id (fill (slot.freed rider.size).toNat books.waiting) := by
  have hserved := (h.alight hride hslot hsize).refill (h.find?_alighted rider hslot)
  have hwaiting := h.waiting_refill_alight hride hslot hsize (books.roster.erase rider.id)
  have hsame := h.sameBut_refill_alight hride hslot hsize
  generalize (books.alight rider slot).refill _ = pass at hserved hwaiting hsame ⊢
  refine ⟨?_, fun id other ↦ ?_, hwaiting, ?_, hsame, fun id hne ↦ ?_⟩
  · rw [whereabouts_eq_unknown_iff]
    exact fun hknows ↦ ((books.knows_alight rider slot rider.id).mp hknows).1 rfl
  · have hseat : (pass.books (books.roster.erase rider.id)).seating.get? id =
        if id ∈ (fill (slot.freed rider.size).toNat books.waiting).map Party.id then
          some slot.vehicle.id else (books.alight rider slot).seating.get? id := hserved.get?_eq id
    rw [Rides, hseat]
    split
    next htaken =>
      -- Those taken waited, and so did not ride anywhere before.
      obtain ⟨party, hparty, hid⟩ := List.mem_map.mp htaken
      have hwait : books.Waits id := ⟨party, (fill_sublist _ _).subset hparty, hid⟩
      have hnot : ¬ books.Rides id other := fun hride' ↦ h.not_waits hride' hwait
      simp [htaken, hnot, eq_comm]
    next hout =>
      refine (books.rides_alight rider slot id other).trans ?_
      simp [hout, eq_comm]
  · obtain ⟨available, hsum, hfind⟩ := hserved.exists_slot
    have hafter : (pass.books (books.roster.erase rider.id)).availableSeats slot.vehicle.id =
        available := Fleet.availableOf_eq hfind
    have hbefore : books.availableSeats slot.vehicle.id = slot.available :=
      Fleet.availableOf_eq hslot
    rw [hafter, hbefore, ← h.toNat_freed hride hslot hsize]
    exact hsum
  · exact (books.getElem?_roster_alight rider slot id).trans (if_neg hne.symm)

/-- The end of a ride changes nothing but what the walk over those who wait comes to. -/
theorem reseated (h : books.Consistent) {vehicle : UInt64} (hride : books.Rides rider.id vehicle)
    (hsize : books.roster[rider.id]? = some rider.size) :
    books.Reseated (books.apply (.dropoff rider.id)) rider vehicle
      (fill ((books.availableSeats vehicle).toNat + rider.size.toNat) books.waiting) := by
  cases h.changed (.dropoff rider.id) with
  | kept harrival hremoves same =>
    exact absurd ((h.knows_iff _).mpr (.inl ⟨vehicle, hride⟩)) (hremoves rider.id rfl)
  | emptied vehicles hoperation same => cases hoperation
  | boarded party slot hoperation harrival hsize hnew hslot hfit same => cases hoperation
  | held party hoperation harrival hsize hnew same => cases hoperation
  | left id hoperation hwait same =>
    cases hoperation
    exact absurd hwait (h.not_waits hride)
  | refilled party slot hoperation hride' hslot hsize' same =>
    obtain ⟨id, size⟩ := party
    cases hoperation
    obtain rfl := Option.some.inj (hride.symm.trans hride')
    obtain rfl : rider.size = size := Option.some.inj (hsize.symm.trans hsize')
    rw [← h.toNat_freed_eq hride hslot hsize]
    exact (h.reseated_refill hride hslot hsize).congr same

end Consistent

end Dispatch

/-! ## Runs -/

namespace Engine

/-- At any point of any run, the end of a ride is answered as such, and the seats that are free then
on the vehicle go to those who wait in the best way for those who came first. Nothing else changes.
That the walk over those who wait may stop early makes no difference, however many seats it has. -/
theorem reseats_best_filling (reserve : Nat) (operations : List Operation) {rider : Party}
    {vehicle : UInt64}
    (hride : ((ofReserve reserve).run operations).books.Rides rider.id vehicle)
    (hsize : ((ofReserve reserve).run operations).books.roster[rider.id]? = some rider.size) :
    let engine := (ofReserve reserve).run operations
    let free := (engine.books.availableSeats vehicle).toNat + rider.size.toNat
    let waiting := engine.books.waiting
    (engine.dropoff rider.id).answer =
      (engine.refusal? (.dropoff rider.id)).elim (.ok .droppedOff) .error ∧
    engine.books.Reseated (engine.dropoff rider.id).engine.books rider vehicle
      (fill free waiting) ∧
    BestFilling free waiting (fill free waiting) ∧
    ∀ seats, engine.books.backlog.choose seats = fill seats.toNat waiting := by
  intro engine free waiting
  have h : engine.books.Consistent := (orderly_run reserve operations).toConsistent
  have hanswer : (engine.books.dropoff rider.id).answer = .droppedOff :=
    (h.decidesEnd rider.id).droppedOff_iff.mpr ⟨vehicle, hride⟩
  refine ⟨?_, ?_, bestFilling_fill free h.nodup_waiting, h.backlog.choose_eq_fill⟩
  · rw [engine.answer_dropoff, hanswer]
  · exact (h.reseated hride hsize).congr (engine.sameRecords_apply (.dropoff rider.id))

/-- A party of three alights from a vehicle of four. Two parties of two get on, and the party of
three between them has to stay. -/
theorem reseats_best_filling_two :
    let engine := (ofReserve 0).run [.reset [⟨1, 4⟩], .requestJourney ⟨5, 3⟩,
      .requestJourney ⟨7, 2⟩, .requestJourney ⟨8, 3⟩, .requestJourney ⟨9, 2⟩]
    engine.books.Reseated (engine.dropoff 5).engine.books ⟨5, 3⟩ 1 [⟨7, 2⟩, ⟨9, 2⟩] ∧
    BestFilling 4 [⟨7, 2⟩, ⟨8, 3⟩, ⟨9, 2⟩] [⟨7, 2⟩, ⟨9, 2⟩] := by
  intro engine
  have hride : engine.books.seating.get? 5 = some 1 := by unfold engine; cbv
  have hsize : engine.books.roster[(5 : UInt64)]? = some 3 := by unfold engine; cbv
  have hwaiting : engine.books.waiting = [⟨7, 2⟩, ⟨8, 3⟩, ⟨9, 2⟩] := by unfold engine; cbv
  have hfree : engine.books.availableSeats 1 = 1 := by unfold engine; cbv
  have hfill : fill ((1 : UInt32).toNat + (3 : UInt32).toNat) [⟨7, 2⟩, ⟨8, 3⟩, ⟨9, 2⟩] =
      [⟨7, 2⟩, ⟨9, 2⟩] := by decide
  obtain ⟨-, hreseated, hbest, -⟩ := @reseats_best_filling 0 _ ⟨5, 3⟩ 1 hride hsize
  rw [hfree, hwaiting, hfill] at hreseated hbest
  exact ⟨hreseated, hbest⟩

end Engine

end RideShare
