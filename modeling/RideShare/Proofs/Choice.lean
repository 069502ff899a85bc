import Mathlib.Algebra.Ring.Nat
import RideShare.Proofs.Backlog
import RideShare.Reallocation

/-!
# Who is chosen

The plan of a pass stops early: when no seat is left, or when the histogram shows nobody small
enough. The histogram counts everybody who waits, and so also those that have been chosen already;
it may send the walk on in vain, but it never stops it too soon.

So the choice is that of a walk that stops nowhere, `fill`, over seats that are plain numbers. It
takes a party exactly if its size is no more than what the parties taken before it have left.

## Main statements

* `Backlog.Sound.choose_eq_fill`: stopping early makes no difference;
* `lt_size_of_passed_over`: whoever is passed over is too large for what is left at that moment, and
  stays too large until the end.
-/

namespace RideShare

/-- The number of people in all of the parties. -/
def headcount (parties : List Party) : Nat := (parties.map fun party ↦ party.size.toNat).sum

@[simp] theorem headcount_nil : headcount [] = 0 := rfl

@[simp] theorem headcount_cons (party : Party) (parties : List Party) :
    headcount (party :: parties) = party.size.toNat + headcount parties := by
  rw [headcount, List.map_cons, List.sum_cons, headcount]

@[simp] theorem headcount_append (parties others : List Party) :
    headcount (parties ++ others) = headcount parties + headcount others := by
  rw [headcount, List.map_append, List.sum_append, headcount, headcount]

/-- The parties that are taken one after the other, each if it fits on what is left. -/
def fill : Nat → List Party → List Party
  | _, [] => []
  | seats, party :: rest =>
    if party.size.toNat ≤ seats then party :: fill (seats - party.size.toNat) rest
    else fill seats rest

theorem fill_cons_of_le {seats : Nat} {party : Party} (h : party.size.toNat ≤ seats)
    (rest : List Party) :
    fill seats (party :: rest) = party :: fill (seats - party.size.toNat) rest := by
  rw [fill, if_pos h]

theorem fill_cons_of_lt {seats : Nat} {party : Party} (h : seats < party.size.toNat)
    (rest : List Party) : fill seats (party :: rest) = fill seats rest := by
  rw [fill, if_neg (Nat.not_le.mpr h)]

theorem fill_sublist (seats : Nat) (parties : List Party) :
    (fill seats parties).Sublist parties := by
  induction parties generalizing seats with
  | nil => exact .slnil
  | cons party rest ih =>
    rw [fill]
    split
    next => exact (ih _).cons_cons party
    next => exact (ih seats).cons party

theorem headcount_fill_le (seats : Nat) (parties : List Party) :
    headcount (fill seats parties) ≤ seats := by
  induction parties generalizing seats with
  | nil => exact Nat.zero_le seats
  | cons party rest ih =>
    rw [fill]
    split
    next h =>
      have := ih (seats - party.size.toNat)
      rw [headcount_cons]
      omega
    next => exact ih seats

/-- Whoever comes later is offered what those before have left. -/
theorem fill_append (seats : Nat) (parties others : List Party) :
    fill seats (parties ++ others) =
      fill seats parties ++ fill (seats - headcount (fill seats parties)) others := by
  induction parties generalizing seats with
  | nil => rfl
  | cons party rest ih =>
    rw [List.cons_append]
    rcases Nat.lt_or_ge seats party.size.toNat with h | h
    · rw [fill_cons_of_lt h, fill_cons_of_lt h, ih]
    · rw [fill_cons_of_le h, fill_cons_of_le h, ih, headcount_cons, List.cons_append,
        Nat.sub_add_eq]

theorem fill_eq_nil {seats : Nat} {parties : List Party}
    (h : ∀ party ∈ parties, seats < party.size.toNat) : fill seats parties = [] := by
  induction parties with
  | nil => rfl
  | cons party rest ih =>
    rw [fill_cons_of_lt (h party (by simp))]
    exact ih fun other hother ↦ h other (by simp [hother])

/-- A party that is passed over does not fit on what is left when it is its turn. -/
theorem lt_size_of_notMem_fill {seats : Nat} {front back : List Party} {party : Party}
    (h : party ∉ fill seats (front ++ party :: back)) :
    seats - headcount (fill seats front) < party.size.toNat := by
  rw [fill_append] at h
  by_contra hle
  rw [fill_cons_of_le (Nat.le_of_not_lt hle)] at h
  simp at h

/-- Nor does it fit on what is left in the end. -/
theorem lt_size_of_mem_of_notMem_fill {seats : Nat} {parties : List Party} {party : Party}
    (hmem : party ∈ parties) (h : party ∉ fill seats parties) :
    seats - headcount (fill seats parties) < party.size.toNat := by
  obtain ⟨front, back, rfl⟩ := List.append_of_mem hmem
  have := lt_size_of_notMem_fill h
  rw [fill_append, headcount_append]
  omega

/-- Whoever is passed over does not fit when it is the turn of somebody behind. -/
theorem lt_size_of_passed_over {seats : Nat} {parties front back : List Party}
    {party other : Party} (hnodup : parties.Nodup) (horder : [party, other].Sublist parties)
    (hchosen : fill seats parties = front ++ other :: back) (hout : party ∉ fill seats parties) :
    seats - headcount front < party.size.toNat := by
  obtain ⟨start, rest, rfl, hstart, hrest⟩ := List.cons_sublist_iff.mp horder
  obtain ⟨earlier, later, rfl⟩ := List.append_of_mem hstart
  rw [List.singleton_sublist] at hrest
  rw [List.append_assoc, List.cons_append] at hout hchosen hnodup
  have hlt := lt_size_of_notMem_fill hout
  rw [fill_append] at hchosen
  rcases List.append_eq_append_iff.mp hchosen with ⟨between, rfl, -⟩ | ⟨between, hearlier, hback⟩
  · rw [headcount_append]
    omega
  · cases between with
    | nil =>
      rw [List.append_nil] at hearlier
      rwa [hearlier] at hlt
    | cons first between =>
      -- The one behind would have been taken before its turn, and so would wait twice.
      obtain ⟨rfl, -⟩ := List.cons.inj hback
      have hmem : other ∈ earlier := (fill_sublist seats earlier).subset (by simp [hearlier])
      have hdisjoint := (List.nodup_append.mp hnodup).2.2 other hmem other (by simp [hrest])
      exact absurd rfl hdisjoint

/-- Stopping where nobody fits makes no difference, as long as nobody is empty. -/
theorem choose_eq_fill {anyFits : UInt32 → Bool} {parties : List Party}
    (hany : ∀ seats, anyFits seats = false → ∀ party ∈ parties, seats < party.size)
    (hpos : ∀ party ∈ parties, 0 < party.size.toNat) (seats : UInt32) :
    choose anyFits seats parties = fill seats.toNat parties := by
  induction parties generalizing seats with
  | nil => rfl
  | cons party rest ih =>
    have ih (seats) := ih (fun seats h other hother ↦ hany seats h other (by simp [hother]))
      (fun other hother ↦ hpos other (by simp [hother])) seats
    rw [choose]
    split
    next hstop =>
      refine (fill_eq_nil fun other hother ↦ ?_).symm
      rw [Bool.or_eq_true, beq_iff_eq, Bool.not_eq_true'] at hstop
      rcases hstop with rfl | hstop
      · exact hpos other hother
      · exact UInt32.lt_iff_toNat_lt.mp (hany seats hstop other hother)
    next =>
      rw [fill, ih, ih]
      simp only [UInt32.le_iff_toNat_le]
      split
      next hle => rw [UInt32.toNat_sub_of_le _ _ (UInt32.le_iff_toNat_le.mpr hle)]
      next => rfl

/-- The choice among all waiting parties is that of a walk that stops nowhere. -/
theorem Backlog.Sound.choose_eq_fill {backlog : Backlog} (h : backlog.Sound) (seats : UInt32) :
    backlog.choose seats = fill seats.toNat backlog.toList := by
  rw [Backlog.choose_eq]
  refine RideShare.choose_eq_fill (fun seats hnone party hparty ↦ ?_) (fun party hparty ↦ ?_) seats
  · by_contra hle
    have := h.anyFits_iff.mpr ⟨party, hparty, UInt32.not_lt.mp hle⟩
    simp [hnone] at this
  · exact (h.size_bounds hparty).1

end RideShare
