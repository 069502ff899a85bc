import RideShare.Proofs.Arrivals

/-!
# Nobody is overtaken unfairly

An operation may seat several parties, one after the other, and what matters to those who are left
waiting is how many seats were free when somebody else took some. `Dispatch.moments` lists the books
as they are between the steps of an operation, and a party *boards* where it does not ride at one
moment and does at the next.

A party that asks for a journey boards a vehicle on which nobody who waits would fit, since nobody
is stranded. One that boards out of the backlog does so when it is its turn, and whoever stands
before it and is passed over does not fit on what those before have left. Either way, whoever came
earlier and still waits is too large.

## Main statements

* `Dispatch.Consistent.boarded`: the two ways to get seats;
* `Dispatch.Orderly.lt_size_of_boards`: whoever stands before and is passed over is too large;
* `Engine.no_overtaking`: in no run does a party overtake one that would have fit.
-/

namespace RideShare

/-! ## Neighbours in a list -/

private theorem exists_change {α : Type} {P : α → Prop} {first last : α} {rest : List α}
    (hfirst : ¬ P first) (hmem : last ∈ rest) (hlast : P last) :
    ∃ before after, [before, after] <:+: first :: rest ∧ ¬ P before ∧ P after := by
  induction rest generalizing first with
  | nil => simp at hmem
  | cons next rest ih =>
    by_cases hnext : P next
    · exact ⟨first, next, ⟨[], rest, rfl⟩, hfirst, hnext⟩
    · have hrest := (List.mem_cons.mp hmem).resolve_left fun heq ↦ hnext (heq ▸ hlast)
      obtain ⟨before, after, hinfix, hchange⟩ := ih hnext hrest
      exact ⟨before, after, List.infix_cons_iff.mpr (.inr hinfix), hchange⟩

private theorem infix_map_pair {α β : Type} {f : α → β} {list : List α} {before after : β}
    (h : [before, after] <:+: list.map f) :
    ∃ a b, [a, b] <:+: list ∧ f a = before ∧ f b = after := by
  obtain ⟨pair, hpair, heq⟩ := List.infix_map_iff.mp h
  obtain ⟨a, tail, rfl, ha, htail⟩ := List.map_eq_cons_iff.mp heq.symm
  obtain ⟨b, tail, rfl, hb, hnil⟩ := List.map_eq_cons_iff.mp htail
  obtain rfl := List.map_eq_nil_iff.mp hnil
  exact ⟨a, b, hpair, ha, hb⟩

private theorem eq_of_prefix_map_inits {α β : Type} {f : List α → β} {list : List α} {first : β}
    (h : [first] <+: list.inits.map f) : first = f [] := by
  cases list <;> exact (List.cons_prefix_cons.mp h).1

/-- Of two neighbouring beginnings of a list, the second is longer by one. -/
private theorem infix_inits {α : Type} {front longer list : List α}
    (h : [front, longer] <:+: list.inits) :
    ∃ next back, longer = front ++ [next] ∧ list = front ++ next :: back := by
  induction list generalizing front longer with
  | nil => exact absurd h.length_le (by simp)
  | cons first rest ih =>
    rw [List.inits_cons, List.infix_cons_iff] at h
    rcases h with hprefix | hinfix
    · obtain ⟨rfl, hhead⟩ := List.cons_prefix_cons.mp hprefix
      exact ⟨first, rest, eq_of_prefix_map_inits hhead, rfl⟩
    · obtain ⟨front', longer', hpair, rfl, rfl⟩ := infix_map_pair hinfix
      obtain ⟨next, back, rfl, rfl⟩ := ih hpair
      exact ⟨next, back, rfl, rfl⟩

/-- Of two members of a list, one stands before the other. -/
private theorem sublist_or_sublist {α : Type} {a b : α} {list : List α} (ha : a ∈ list)
    (hb : b ∈ list) (hne : a ≠ b) : [a, b].Sublist list ∨ [b, a].Sublist list := by
  obtain ⟨front, back, rfl⟩ := List.append_of_mem ha
  rcases List.mem_append.mp hb with hb | hb
  · exact .inr ((List.singleton_sublist.mpr hb).append (List.singleton_sublist.mpr (by simp)))
  · have hb := (List.mem_cons.mp hb).resolve_left hne.symm
    exact .inl (((List.singleton_sublist.mpr hb).cons_cons a).trans (List.sublist_append_right _ _))

namespace Dispatch

/-! ## From moment to moment -/

/-- The books from moment to moment while an operation is carried out. A vehicle that is filled has
a moment before and after each party that boards it. -/
def moments (books : Dispatch) : Operation → List Dispatch
  | .dropoff id =>
    match books.roster[id]?, books.seating.get? id with
    | some size, some vehicle =>
      let chosen := books.backlog.choose (books.fleet.release vehicle size).1
      let pass := Pass.ofBooks (books.forget { id, size } vehicle)
      books :: chosen.inits.map fun seated ↦
        (Pass.seatAll vehicle pass seated).books (books.roster.erase id)
    | _, _ => [books, (books.dropoff id).books]
  | operation => [books, books.apply operation]

/-- While an operation is carried out, a party takes seats on a vehicle that has `free` of them free
at the moment before. -/
def Boards (books : Dispatch) (operation : Operation) (id vehicle : UInt64) (free : UInt32) :
    Prop :=
  ∃ before after, [before, after] <:+: books.moments operation ∧
    ¬ before.Rides id vehicle ∧ after.Rides id vehicle ∧ before.availableSeats vehicle = free

variable {books : Dispatch} {operation : Operation} {id vehicle : UInt64} {free : UInt32}

/-- A party that rides alights at the first moment, and those who board do so at the others. -/
theorem moments_dropoff {size : UInt32} (hsize : books.roster[id]? = some size)
    (hride : books.Rides id vehicle) :
    books.moments (.dropoff id) =
      books :: (books.backlog.choose (books.fleet.release vehicle size).1).inits.map fun seated ↦
        (Pass.seatAll vehicle (Pass.ofBooks (books.forget { id, size } vehicle)) seated).books
          (books.roster.erase id) := by
  have hseat : books.seating.get? id = some vehicle := hride
  simp only [moments, hsize, hseat]

/-- Unless a party alights, there is nothing between before and after. -/
theorem moments_eq_pair
    (h : ∀ id vehicle, operation = .dropoff id → books.Knows id → ¬ books.Rides id vehicle) :
    books.moments operation = [books, books.apply operation] := by
  cases operation with
  | dropoff id =>
    rw [moments]
    split
    next size vehicle hsize hseat =>
      have hknows : books.Knows id := by
        rw [Knows, Std.HashMap.mem_iff_isSome_getElem?, hsize]
        rfl
      exact absurd hseat (h id vehicle rfl hknows)
    next => rfl
  | reset vehicles => rfl
  | requestJourney party => rfl
  | locate id => rfl
  | setManager manager => rfl
  | readClock now => rfl

/-- The moments lead from the books before an operation to the books afterwards. -/
theorem exists_moments (books : Dispatch) (operation : Operation) :
    ∃ rest, books.moments operation = books :: rest ∧
      ∃ last ∈ rest, last.SameRecords (books.apply operation) := by
  by_cases hpair : books.moments operation = [books, books.apply operation]
  · exact ⟨_, hpair, _, List.mem_singleton_self _, .refl _⟩
  · obtain ⟨id, vehicle, rfl, hknows, hride⟩ : ∃ id vehicle, operation = .dropoff id ∧
        books.Knows id ∧ books.Rides id vehicle := by
      by_contra hnobody
      exact hpair (moments_eq_pair fun id vehicle hoperation hknows hride ↦
        hnobody ⟨id, vehicle, hoperation, hknows, hride⟩)
    obtain ⟨size, hsize⟩ := Option.isSome_iff_exists.mp
      (Std.HashMap.mem_iff_isSome_getElem?.mp hknows)
    have hseat : books.seating.get? id = some vehicle := hride
    refine ⟨_, moments_dropoff hsize hride, _,
      List.mem_map_of_mem ((List.mem_inits _ _).mpr (List.prefix_refl _)), ?_⟩
    simp only [apply, dropoff, hsize, hseat]
    exact ⟨rfl, rfl, rfl, rfl⟩

/-- Whoever rides after an operation and did not before has boarded. -/
theorem exists_boards (hbefore : ¬ books.Rides id vehicle)
    (hafter : (books.apply operation).Rides id vehicle) :
    ∃ free, books.Boards operation id vehicle free := by
  obtain ⟨rest, hmoments, last, hlast, same⟩ := books.exists_moments operation
  obtain ⟨before, after, hinfix, hnot, hride⟩ :=
    exists_change (P := fun moment ↦ moment.Rides id vehicle) hbefore hlast
      ((same.rides_iff id vehicle).mpr hafter)
  exact ⟨_, before, after, hmoments ▸ hinfix, hnot, hride, rfl⟩

theorem Boards.of_pair (h : books.Boards operation id vehicle free)
    (hmoments : books.moments operation = [books, books.apply operation]) :
    ¬ books.Rides id vehicle ∧ (books.apply operation).Rides id vehicle ∧
      books.availableSeats vehicle = free := by
  obtain ⟨before, after, hinfix, h⟩ := h
  rw [hmoments] at hinfix
  obtain ⟨rfl, rfl⟩ : before = books ∧ after = books.apply operation := by
    simpa using hinfix.eq_of_length rfl
  exact h

/-! ## Two ways to get seats -/

/-- How a party can come to take seats. -/
inductive Boarded (books : Dispatch) (operation : Operation) (id vehicle : UInt64)
    (free : UInt32) : Prop where
  /-- It asks for a journey and boards. -/
  | onRequest (party : Party) (slot : Slot) (hid : party.id = id)
      (hslot : books.fleet.find? slot.vehicle.id = some slot) (hfree : slot.available = free)
      (hfit : party.size ≤ slot.available)
      (same : (books.board party slot).SameRecords (books.apply operation))
  /-- It has waited, and is chosen when somebody alights. -/
  | fromBacklog (rider : Party) (slot : Slot) (party : Party) (front back : List Party)
      (hid : party.id = id) (harrival : books.arrival? operation = none)
      (hride : books.Rides rider.id slot.vehicle.id)
      (hslot : books.fleet.find? slot.vehicle.id = some slot)
      (hsize : books.roster[rider.id]? = some rider.size)
      (hchosen : fill (slot.freed rider.size).toNat books.waiting = front ++ party :: back)
      (hfree : free.toNat + headcount front = (slot.freed rider.size).toNat)
      (same : SameRecords
        (((books.alight rider slot).refill (slot.withAvailable (slot.freed rider.size))).books
          (books.roster.erase rider.id))
        (books.apply operation))

namespace Consistent

/-- Between two moments of a pass, the party that boards is the next of those chosen, and those
before it have taken their seats. -/
theorem eq_of_moments {slot : Slot} {front back : List Party} {next : Party}
    (h : books.Consistent) (hslot : books.fleet.find? slot.vehicle.id = some slot)
    (hchosen : fill slot.available.toNat books.waiting = front ++ next :: back)
    (hbefore : ¬ ((Pass.seatAll slot.vehicle.id (Pass.ofBooks books) front).books
      books.roster).Rides id vehicle)
    (hafter : ((Pass.seatAll slot.vehicle.id (Pass.ofBooks books) (front ++ [next])).books
      books.roster).Rides id vehicle) :
    next.id = id ∧ slot.vehicle.id = vehicle ∧
      (((Pass.seatAll slot.vehicle.id (Pass.ofBooks books) front).books
        books.roster).availableSeats vehicle).toNat + headcount front = slot.available.toNat := by
  have hready := h.ready hslot
  rw [hchosen] at hready
  have hserved := hready.of_append.served
  rw [List.append_cons] at hready
  have hserved' := hready.of_append.served
  have hget := hserved.get?_eq id
  have hget' := hserved'.get?_eq id
  have hnot : id ∉ front.map Party.id := by
    intro hmem
    rw [if_pos hmem] at hget
    rw [List.map_append, if_pos (List.mem_append_left _ hmem)] at hget'
    exact hbefore (hget.trans (hget'.symm.trans hafter))
  rw [if_neg hnot] at hget
  have hid : next.id = id := by
    by_contra hne
    have hnot' : id ∉ (front ++ [next]).map Party.id := by
      rw [List.map_append, List.map_singleton, List.mem_append, List.mem_singleton, not_or]
      exact ⟨hnot, Ne.symm hne⟩
    rw [if_neg hnot'] at hget'
    exact hbefore (hget.trans (hget'.symm.trans hafter))
  have hmem : id ∈ (front ++ [next]).map Party.id := by simp [hid]
  rw [if_pos hmem] at hget'
  obtain rfl : slot.vehicle.id = vehicle := Option.some.inj (hget'.symm.trans hafter)
  obtain ⟨available, hsum, hfind⟩ := hserved.exists_slot
  have hfree : ((Pass.seatAll slot.vehicle.id (Pass.ofBooks books) front).books
      books.roster).availableSeats slot.vehicle.id = available :=
    Fleet.availableOf_eq hfind
  exact ⟨hid, rfl, by rw [hfree, hsum]⟩

/-- There is no other way. -/
theorem boarded (h : books.Consistent) (hboards : books.Boards operation id vehicle free) :
    Boarded books operation id vehicle free := by
  cases h.changed operation with
  | kept harrival hremoves same =>
    have hpair : books.moments operation = [books, books.apply operation] :=
      moments_eq_pair fun id vehicle hoperation hknows _ ↦
        hremoves id (by rw [hoperation]; rfl) hknows
    obtain ⟨hbefore, hafter, -⟩ := hboards.of_pair hpair
    exact absurd ((same.rides_iff id vehicle).mpr hafter) hbefore
  | emptied vehicles hoperation same =>
    obtain ⟨-, hafter, -⟩ := hboards.of_pair (hoperation ▸ rfl)
    rw [← same.rides_iff] at hafter
    exact absurd hafter (by simp [Rides, Seating.get?])
  | boarded party slot hoperation harrival hsize hnew hslot hfit same =>
    obtain ⟨hbefore, hafter, hfree⟩ := hboards.of_pair (hoperation ▸ rfl)
    rw [← same.rides_iff, rides_board] at hafter
    split at hafter
    next hid =>
      refine .onRequest party slot hid hslot ?_ hfit same
      rw [← hfree, ← hafter, availableSeats, Fleet.availableOf_eq hslot]
    next => exact absurd hafter hbefore
  | held party hoperation harrival hsize hnew same =>
    obtain ⟨hbefore, hafter, -⟩ := hboards.of_pair (hoperation ▸ rfl)
    exact absurd ((same.rides_iff id vehicle).mpr hafter) hbefore
  | left other hoperation hwait same =>
    have hpair : books.moments operation = [books, books.apply operation] :=
      moments_eq_pair fun id vehicle heq _ hride ↦ by
        obtain rfl : other = id := Operation.dropoff.inj (hoperation.symm.trans heq)
        exact h.not_waits hride hwait
    obtain ⟨hbefore, hafter, -⟩ := hboards.of_pair hpair
    exact absurd ((same.rides_iff id vehicle).mpr hafter) hbefore
  | refilled rider slot hoperation hride hslot hsize same =>
    obtain ⟨before, after, hinfix, hbefore, hafter, hfree⟩ := hboards
    have halight := h.alight hride hslot hsize
    have hchoice : books.backlog.choose (books.fleet.release slot.vehicle.id rider.size).1 =
        fill (slot.freed rider.size).toNat books.waiting := by
      rw [Fleet.release_eq hslot]
      exact h.backlog.choose_eq_fill _
    rw [hoperation, moments_dropoff hsize hride, hchoice, books.forget_eq hslot,
      List.infix_cons_iff] at hinfix
    rcases hinfix with hprefix | hinfix
    · -- Nobody boards while the rider alights.
      obtain ⟨rfl, hhead⟩ := List.cons_prefix_cons.mp hprefix
      rw [eq_of_prefix_map_inits hhead] at hafter
      exact absurd ((before.rides_alight rider slot id vehicle).mp hafter).2 hbefore
    · obtain ⟨front, longer, hinits, rfl, rfl⟩ := infix_map_pair hinfix
      obtain ⟨next, back, rfl, hchosen⟩ := infix_inits hinits
      obtain ⟨hid, rfl, hsum⟩ :=
        halight.eq_of_moments (h.find?_alighted rider hslot) hchosen hbefore hafter
      refine .fromBacklog rider slot next front back hid ?_ hride hslot hsize hchosen ?_ same
      · rw [hoperation]
        rfl
      · rw [← hfree]
        exact hsum

end Consistent

/-! ## Those who are passed over -/

/-- A party takes no more seats than are free. -/
theorem Consistent.sizeOf_le_of_boards (h : books.Consistent)
    (hboards : books.Boards operation id vehicle free) :
    (books.apply operation).sizeOf id ≤ free.toNat := by
  cases h.boarded hboards with
  | onRequest party slot hid hslot hfree hfit same =>
    have hroster := books.getElem?_roster_board party slot id
    rw [if_pos hid, same.roster] at hroster
    rw [Consistent.sizeOf_eq hroster, ← hfree]
    exact UInt32.le_iff_toNat_le.mp hfit
  | fromBacklog rider slot party front back hid harrival hride hslot hsize hchosen hfree same =>
    have hparty : party ∈ books.waiting := by
      refine (fill_sublist (slot.freed rider.size).toNat books.waiting).subset ?_
      rw [hchosen]
      simp
    have hne : rider.id ≠ id := by
      rintro rfl
      exact h.not_waits hride ⟨party, hparty, hid⟩
    have hroster : (books.apply operation).roster[id]? = some party.size := by
      rw [← same.roster, ← h.roster_of_waiting party hparty, hid]
      exact (books.getElem?_roster_alight rider slot id).trans (if_neg hne)
    have hle := headcount_fill_le (slot.freed rider.size).toNat books.waiting
    rw [hchosen, headcount_append, headcount_cons] at hle
    rw [Consistent.sizeOf_eq hroster]
    omega

/-- Whoever still waits, and did not stand behind the party that boards, is too large for the seats
that are free when it boards. -/
theorem Orderly.lt_size_of_boards (h : books.Orderly)
    (hboards : books.Boards operation id vehicle free) {party : Party}
    (hparty : party ∈ (books.apply operation).waiting)
    (hfirst : ∀ other ∈ books.waiting, other.id = id → ¬ [other, party].Sublist books.waiting) :
    free < party.size := by
  cases h.boarded hboards with
  | onRequest boarder slot hid hslot hfree hfit same =>
    rw [← same.waiting_eq] at hparty
    rw [← hfree]
    exact h.settled party hparty slot (h.fleet.mem_slots_iff.mpr hslot)
  | fromBacklog rider slot boarder front back hid harrival hride hslot hsize hchosen hfree same =>
    rw [← same.waiting_eq, h.waiting_refill_alight hride hslot hsize, List.mem_filter,
      decide_eq_true_eq] at hparty
    have hboarder : boarder ∈ fill (slot.freed rider.size).toNat books.waiting := by
      rw [hchosen]
      simp
    have hmem := (fill_sublist _ _).subset hboarder
    have hne : party ≠ boarder := fun heq ↦ hparty.2 (heq ▸ hboarder)
    have horder := (sublist_or_sublist hparty.1 hmem hne).resolve_right (hfirst boarder hmem hid)
    have hlt := lt_size_of_passed_over h.nodup_waiting horder hchosen hparty.2
    rw [UInt32.lt_iff_toNat_lt]
    omega

/-- Whoever still waits, and arrived before the party that boards, is too large for the seats that
are free when it boards. -/
theorem Orderly.lt_size_of_precedes (h : books.Orderly) {log : List UInt64}
    (harrived : books.Arrived log) (hboards : books.Boards operation id vehicle free)
    {party : Party} (hparty : party ∈ (books.apply operation).waiting)
    (hprecedes : Precedes (log ++ (books.arrival? operation).toList) party.id id) :
    free < party.size := by
  refine h.lt_size_of_boards hboards hparty fun other hother hid horder ↦ ?_
  have hknows : books.Knows id := (h.knows_iff id).mpr (.inr ⟨other, hother, hid⟩)
  have hearlier : Precedes log id party.id := by
    have hpair := harrived.pairwise.sublist horder
    rw [List.pairwise_pair, hid] at hpair
    exact hpair
  have hnot : id ∉ (books.arrival? operation).toList := by
    rw [Option.mem_toList, h.arrival?_eq_some_iff]
    exact fun harrival ↦ harrival.1 hknows
  exact hearlier.asymm (hprecedes.of_append hnot).2

/-- Whoever waits is larger than those who ride and arrived later. -/
def Fair (books : Dispatch) (log : List UInt64) : Prop :=
  ∀ party ∈ books.waiting, ∀ id vehicle, books.Rides id vehicle → Precedes log party.id id →
    books.sizeOf id < party.size.toNat

theorem Fair.apply {log : List UInt64} (h : books.Fair log) (hbooks : books.Orderly)
    (harrived : books.Arrived log) (operation : Operation) :
    (books.apply operation).Fair (log ++ (books.arrival? operation).toList) := by
  intro party hparty id vehicle hride hprecedes
  by_cases hrode : books.Rides id vehicle
  · -- The party rode before, so it is not the one that arrives, and nor is the one that waits.
    have hknows : books.Knows id := (hbooks.knows_iff id).mpr (.inl ⟨vehicle, hrode⟩)
    have hknows' : (books.apply operation).Knows id :=
      ((hbooks.apply operation).knows_iff id).mpr (.inl ⟨vehicle, hride⟩)
    have hstays : ¬ operation.Removes id := fun hremoves ↦
      hbooks.not_knows_apply hremoves hknows'
    have hnot : id ∉ (books.arrival? operation).toList := by
      rw [Option.mem_toList, hbooks.arrival?_eq_some_iff]
      exact fun harrival ↦ harrival.1 hknows
    obtain ⟨hnot', hprecedes'⟩ := hprecedes.of_append hnot
    have hwaited : party ∈ books.waiting := by
      rcases hbooks.waiting_apply operation with hsub | ⟨last, harrival, -, hwaiting⟩
      · exact hsub.subset hparty
      · rw [hwaiting, List.mem_append, List.mem_singleton] at hparty
        refine hparty.resolve_right ?_
        rintro rfl
        exact hnot' (by simp [harrival])
    have hsize : (books.apply operation).sizeOf id = books.sizeOf id := by
      rw [sizeOf, sizeOf, Std.HashMap.getD_eq_getD_getElem?, Std.HashMap.getD_eq_getD_getElem?,
        hbooks.roster_apply hknows hstays]
    rw [hsize]
    exact h party hwaited id vehicle hrode hprecedes'
  · obtain ⟨free, hboards⟩ := exists_boards hrode hride
    have hlt := hbooks.lt_size_of_precedes harrived hboards hparty hprecedes
    exact (hbooks.sizeOf_le_of_boards hboards).trans_lt (UInt32.lt_iff_toNat_lt.mp hlt)

theorem Fair.congr {books' : Dispatch} {log : List UInt64} (h : books.Fair log)
    (same : books.SameRecords books') : books'.Fair log := by
  intro party hparty id vehicle hride hprecedes
  rw [← same.waiting_eq] at hparty
  rw [sizeOf, ← same.roster]
  exact h party hparty id vehicle ((same.rides_iff id vehicle).mpr hride) hprecedes

end Dispatch

namespace Engine

/-- At every point of every run, whoever waits is larger than those who ride and arrived later. -/
theorem fair_run (reserve : Nat) (operations : List Operation) :
    ((ofReserve reserve).run operations).books.Fair ((ofReserve reserve).arrivals operations) := by
  induction operations using List.reverseRecOn with
  | nil =>
    intro party hparty
    have hnobody : (Dispatch.ofReserve reserve).waiting = [] := Backlog.toList_ofReserve reserve
    exact absurd (hnobody ▸ hparty : party ∈ []) List.not_mem_nil
  | append_singleton operations operation ih =>
    rw [run_concat, arrivals_concat]
    exact (ih.apply (orderly_run reserve operations) (arrived_run reserve operations)
      operation).congr (sameRecords_apply _ operation)

section

variable {reserve : Nat} {operations later : List Operation} {party other : Party}

/-- If a party arrives while another one waits, the other one has arrived before it, in the end as
well, unless one of them has been put out of the books. -/
theorem precedes_of_arrival (hparty : party ∈ ((ofReserve reserve).run operations).books.waiting)
    (harrival : ((ofReserve reserve).run operations).books.arrival? (.requestJourney other) =
      some other.id)
    (hstays : ∀ operation ∈ later, ¬ operation.Removes party.id) :
    Precedes ((ofReserve reserve).arrivals (operations ++ .requestJourney other :: later))
      party.id other.id := by
  have horderly := orderly_run reserve operations
  have hknows := (horderly.knows_iff _).mpr (.inr ⟨party, hparty, rfl⟩)
  rw [arrivals_append]
  refine .of_mem ((arrived_run reserve operations).mem_log _ hknows)
    (notMem_arrivals horderly hknows (List.forall_mem_cons.mpr
      ⟨Operation.not_removes_requestJourney party.id other, hstays⟩)).1 ?_
  rw [arrivals, harrival]
  simp

/-- If a party arrives while one no larger than itself is waiting, it does not ride as long as the
other one waits, unless one of them has been put out of the books. -/
theorem not_waits_of_rides (hparty : party ∈ ((ofReserve reserve).run operations).books.waiting)
    (harrival : ((ofReserve reserve).run operations).books.arrival? (.requestJourney other) =
      some other.id)
    (hle : party.size ≤ other.size)
    (hstays : ∀ operation ∈ later, ¬ operation.Removes party.id ∧ ¬ operation.Removes other.id)
    {vehicle : UInt64}
    (hride : ((ofReserve reserve).run (operations ++ .requestJourney other :: later)).books.Rides
      other.id vehicle) :
    ¬ ((ofReserve reserve).run (operations ++ .requestJourney other :: later)).books.Waits
      party.id := by
  rintro ⟨waiter, hwaiter, hid⟩
  have horderly := orderly_run reserve operations
  have hfinal := orderly_run reserve (operations ++ .requestJourney other :: later)
  have hsame := sameRecords_apply ((ofReserve reserve).run operations) (.requestJourney other)
  have hstays' : ∀ operation ∈ later, ¬ operation.Removes party.id :=
    fun operation hoperation ↦ (hstays operation hoperation).1
  have hprecedes := precedes_of_arrival hparty harrival hstays'
  have hlt := fair_run reserve (operations ++ .requestJourney other :: later) waiter hwaiter
    other.id vehicle hride (hid ▸ hprecedes)
  -- The sizes are those by which the two were known when the second arrived.
  have hparty' : waiter.size = party.size := by
    have hknows := (horderly.knows_iff _).mpr (.inr ⟨party, hparty, rfl⟩)
    have hsize := (notMem_arrivals horderly hknows (List.forall_mem_cons.mpr
      ⟨Operation.not_removes_requestJourney party.id other, hstays'⟩)).2
    have hwaits := hfinal.roster_of_waiting waiter hwaiter
    rw [run_append, hid, hsize, horderly.roster_of_waiting party hparty] at hwaits
    exact (Option.some.inj hwaits).symm
  have hother : ((ofReserve reserve).run
      (operations ++ .requestJourney other :: later)).books.sizeOf other.id = other.size.toNat := by
    have harrived := (horderly.arrival?_eq_some_iff _ _).mp harrival
    have hsize := (notMem_arrivals (orderly_apply horderly (.requestJourney other))
      ((hsame.knows_iff _).mp harrived.2) fun operation hoperation ↦
        (hstays operation hoperation).2).2
    have hroster := horderly.roster_of_arrival harrival
    rw [hsame.roster, ← hsize] at hroster
    rw [run_append]
    exact Dispatch.Consistent.sizeOf_eq hroster
  rw [hother, hparty'] at hlt
  exact absurd (UInt32.le_iff_toNat_le.mp hle) (Nat.not_le.mpr hlt)

end

/-- In no run does a party overtake one that would have fit. Whoever takes seats leaves behind, of
those who arrived before, only parties that are larger than the seats then free. So if a party
arrives while one no larger than itself is waiting, it does not ride as long as the other one waits,
unless one of them has been put out of the books. A party that asks for a journey and is turned
away, because it rides or waits already, does not arrive. -/
theorem no_overtaking (reserve : Nat) (operations : List Operation) :
    let engine := (ofReserve reserve).run operations
    (∀ operation id vehicle free, engine.books.Boards operation id vehicle free →
      ∀ party ∈ (engine.apply operation).books.waiting,
        Precedes ((ofReserve reserve).arrivals (operations ++ [operation])) party.id id →
          free < party.size) ∧
    ∀ party ∈ engine.books.waiting, ∀ other : Party,
      engine.books.arrival? (.requestJourney other) = some other.id → party.size ≤ other.size →
      ∀ later, (∀ operation ∈ later, ¬ operation.Removes party.id ∧ ¬ operation.Removes other.id) →
      ∀ vehicle, ((engine.apply (.requestJourney other)).run later).books.Rides other.id vehicle →
        ¬ ((engine.apply (.requestJourney other)).run later).books.Waits party.id := by
  intro engine
  refine ⟨fun operation id vehicle free hboards party hparty hprecedes ↦ ?_, ?_⟩
  · rw [arrivals_concat] at hprecedes
    rw [← (engine.sameRecords_apply operation).waiting_eq] at hparty
    exact (orderly_run reserve operations).lt_size_of_precedes (arrived_run reserve operations)
      hboards hparty hprecedes
  · intro party hparty other harrival hle later hstays vehicle hride
    have hrun : (ofReserve reserve).run (operations ++ .requestJourney other :: later) =
        (engine.apply (.requestJourney other)).run later := run_append _ operations _
    rw [← hrun] at hride ⊢
    exact not_waits_of_rides hparty harrival hle hstays hride

/-- Two runs in which a party alights. In the first, the larger of two parties is passed over since
it fits on no vehicle; in the second, two parties get their seats at once. -/
theorem no_overtaking_of_dropoff :
    (∃ free, ((ofReserve 0).run [.reset [⟨1, 4⟩], .requestJourney ⟨5, 3⟩, .requestJourney ⟨7, 5⟩,
        .requestJourney ⟨8, 2⟩]).books.Boards (.dropoff 5) 8 1 free ∧ free < 5) ∧
    ¬ ((((ofReserve 0).run [.reset [⟨1, 6⟩], .requestJourney ⟨5, 6⟩,
        .requestJourney ⟨7, 2⟩]).apply (.requestJourney ⟨8, 3⟩)).run [.dropoff 5]).books.Waits 7 := by
  constructor
  · generalize hoperations : ([.reset [⟨1, 4⟩], .requestJourney ⟨5, 3⟩, .requestJourney ⟨7, 5⟩,
      .requestJourney ⟨8, 2⟩] : List Operation) = operations
    have hbefore : ((ofReserve 0).run operations).books.seating.get? 8 = none := by
      subst hoperations
      cbv
    have hafter : (((ofReserve 0).run operations).books.apply (.dropoff 5)).seating.get? 8 =
        some 1 := by
      subst hoperations
      cbv
    have hwaiting : (((ofReserve 0).run operations).apply (.dropoff 5)).books.waiting =
        [⟨7, 5⟩] := by
      subst hoperations
      cbv
    have hlog : (ofReserve 0).arrivals (operations ++ [.dropoff 5]) = [5, 7, 8] := by
      subst hoperations
      cbv
    obtain ⟨free, hboards⟩ := Dispatch.exists_boards (by simp [Dispatch.Rides, hbefore]) hafter
    refine ⟨free, hboards, (no_overtaking 0 operations).1 _ _ _ _ hboards ⟨7, 5⟩ ?_ ?_⟩
    · simp [hwaiting]
    · rw [hlog]
      exact ⟨[5], [8], rfl, by decide, by decide⟩
  · generalize hoperations : ([.reset [⟨1, 6⟩], .requestJourney ⟨5, 6⟩,
      .requestJourney ⟨7, 2⟩] : List Operation) = operations
    have hwaiting : ((ofReserve 0).run operations).books.waiting = [⟨7, 2⟩] := by
      subst hoperations
      cbv
    have harrival : ((ofReserve 0).run operations).books.arrival? (.requestJourney ⟨8, 3⟩) =
        some 8 := by
      subst hoperations
      cbv
    have hride : ((((ofReserve 0).run operations).apply (.requestJourney ⟨8, 3⟩)).run
        [.dropoff 5]).books.seating.get? 8 = some 1 := by
      subst hoperations
      cbv
    refine (no_overtaking 0 operations).2 ⟨7, 2⟩ ?_ ⟨8, 3⟩ harrival (by decide) _ ?_ 1 hride
    · simp [hwaiting]
    · simp [Operation.Removes]

end Engine

end RideShare
