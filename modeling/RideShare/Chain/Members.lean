import RideShare.Chain

/-!
# The members of a chain

A chain is two cell numbers, and a table of links many chains may share. That the two together hold
certain cells in a certain order is a relation, `Chain.HasMembers`: it fixes the ends, and the link
of every member on both sides.

The link of a member is given by splitting the list of members at it, rather than by its place. An
operation on a chain splits the list as well, so its effect on the links is compared with the split
that is asked about, and no place is ever computed.

## Main statements

* `Chain.HasMembers.toList_eq` and `Chain.HasMembers.toListRev_eq`: reading a chain off gives its
  members, from either end;
* `Chain.HasMembers.push` and `Chain.HasMembers.unlink`: what the operations do to the members;
* `Chain.HasMembers.congr`: a chain keeps its members as long as nobody touches their links, and
  `Chain.HasMembers.getElem?_push` and `Chain.HasMembers.getElem?_unlink_of_notMem` say whose links
  an operation leaves alone.
-/

namespace RideShare

namespace LinkTable

/-- The cells listed are linked to each other in this order, and to no other cell. -/
def Joins (links : LinkTable) (cells : List Nat) : Prop :=
  ∀ front i back, cells = front ++ i :: back →
    links[i]? = some { prev := front.getLast?, next := back.head? }

variable {links : LinkTable} {cells : List Nat}

theorem Joins.lt_size (h : links.Joins cells) {i : Nat} (hi : i ∈ cells) : i < links.size := by
  obtain ⟨front, back, hcells⟩ := List.append_of_mem hi
  exact (Array.getElem?_eq_some_iff.mp (h front i back hcells)).1

theorem Joins.next?_eq {front back : List Nat} {i : Nat} (h : links.Joins (front ++ i :: back)) :
    links.next? i = back.head? := by
  simp [next?, Array.getD_eq_getD_getElem?, h front i back rfl]

theorem Joins.prev?_eq {front back : List Nat} {i : Nat} (h : links.Joins (front ++ i :: back)) :
    links.prev? i = front.getLast? := by
  simp [prev?, Array.getD_eq_getD_getElem?, h front i back rfl]

/-- Walking on from where the members are split meets those behind the split. -/
theorem Joins.toList_walk_next (front back : List Nat) (h : links.Joins (front ++ back))
    {bound : Nat} (hbound : back.length ≤ bound) :
    (walk links.next? bound back.head? #[]).toList = back := by
  induction back generalizing front bound with
  | nil => simp
  | cons i back ih =>
    obtain ⟨bound, rfl⟩ := Nat.exists_eq_add_one_of_ne_zero (Nat.ne_zero_of_lt hbound)
    rw [List.head?_cons, toList_walk_some, h.next?_eq]
    rw [ih (front ++ [i]) (by simpa using h) (by simpa using hbound)]

/-- Walking back from where the members are split meets those in front of it. -/
theorem Joins.toList_walk_prev (front back : List Nat) (h : links.Joins (front.reverse ++ back))
    {bound : Nat} (hbound : front.length ≤ bound) :
    (walk links.prev? bound front.head? #[]).toList = front := by
  induction front generalizing back bound with
  | nil => simp
  | cons i front ih =>
    obtain ⟨bound, rfl⟩ := Nat.exists_eq_add_one_of_ne_zero (Nat.ne_zero_of_lt hbound)
    rw [List.reverse_cons, List.append_assoc, List.singleton_append] at h
    rw [List.head?_cons, toList_walk_some, h.prev?_eq, List.getLast?_reverse]
    rw [ih (i :: back) h (by simpa using hbound)]

@[simp] theorem getElem?_setNext (links : LinkTable) (i j : Nat) (next : Option Nat) :
    (links.setNext i next)[j]? =
      links[j]?.map fun link ↦ { link with next := if i = j then next else link.next } := by
  rw [setNext, Array.getElem?_modify]
  split <;> simp [*]

@[simp] theorem getElem?_setPrev (links : LinkTable) (i j : Nat) (prev : Option Nat) :
    (links.setPrev i prev)[j]? =
      links[j]?.map fun link ↦ { link with prev := if i = j then prev else link.prev } := by
  rw [setPrev, Array.getElem?_modify]
  split <;> simp [*]

@[simp] theorem getElem?_setLink_self {i : Nat} (hi : i < links.size) (link : Link) :
    (links.setLink i link)[i]? = some link := by
  simp [setLink, hi]

@[simp] theorem getElem?_setLink_ne {i j : Nat} (h : i ≠ j) (link : Link) :
    (links.setLink i link)[j]? = links[j]? := by
  rw [setLink, Array.getElem?_setIfInBounds_ne h]

end LinkTable

namespace Chain

/-- The chain has exactly the members listed, in this order. -/
structure HasMembers (chain : Chain) (links : LinkTable) (cells : List Nat) : Prop where
  /-- No cell is a member twice. -/
  nodup : cells.Nodup
  /-- The chain begins with the first member. -/
  first_eq : chain.first = cells.head?
  /-- The chain ends with the last member. -/
  last_eq : chain.last = cells.getLast?
  /-- The members are linked in order. -/
  joins : links.Joins cells

@[simp] theorem hasMembers_nil (links : LinkTable) : HasMembers {} links [] where
  nodup := .nil
  first_eq := rfl
  last_eq := rfl
  joins front i back h := by simp at h

/-- Numbers below a bound, none of them twice, are no more than the bound. -/
theorem length_le_of_nodup {cells : List Nat} (hcells : cells.Nodup) {n : Nat}
    (hlt : ∀ i ∈ cells, i < n) : cells.length ≤ n := by
  induction n generalizing cells with
  | zero => simp [List.eq_nil_iff_forall_not_mem.mpr fun i hi ↦ Nat.not_lt_zero i (hlt i hi)]
  | succ n ih =>
    have below : (cells.erase n).length ≤ n := ih (hcells.erase n) fun i hi ↦ by
      have hi := hcells.mem_erase_iff.mp hi
      have := hlt i hi.2
      omega
    have : cells.length ≤ (cells.erase n).length + 1 := by
      rw [List.length_erase]
      split <;> omega
    omega

namespace HasMembers

variable {chain : Chain} {links : LinkTable} {cells : List Nat}

/-! ## Reading off -/

theorem lt_size (h : chain.HasMembers links cells) {i : Nat} (hi : i ∈ cells) : i < links.size :=
  h.joins.lt_size hi

theorem length_le_size (h : chain.HasMembers links cells) : cells.length ≤ links.size :=
  length_le_of_nodup h.nodup fun _ hi ↦ h.lt_size hi

/-- However far one walks from the first member on, one meets the members and then the end. -/
theorem toList_walk_next (h : chain.HasMembers links cells) {bound : Nat}
    (hbound : cells.length ≤ bound) :
    (LinkTable.walk links.next? bound chain.first #[]).toList = cells := by
  rw [h.first_eq]
  exact LinkTable.Joins.toList_walk_next [] cells h.joins hbound

/-- However far one walks back from the last member, one meets the members and then the end. -/
theorem toList_walk_prev (h : chain.HasMembers links cells) {bound : Nat}
    (hbound : cells.length ≤ bound) :
    (LinkTable.walk links.prev? bound chain.last #[]).toList = cells.reverse := by
  rw [h.last_eq, ← List.head?_reverse]
  refine LinkTable.Joins.toList_walk_prev cells.reverse [] ?_ ?_
  · simpa using h.joins
  · simpa using hbound

theorem toList_eq (h : chain.HasMembers links cells) : chain.toList links = cells :=
  h.toList_walk_next h.length_le_size

theorem toListRev_eq (h : chain.HasMembers links cells) :
    chain.toListRev links = cells.reverse :=
  h.toList_walk_prev h.length_le_size

/-- A chain has its members as long as they have their links. -/
theorem congr (h : chain.HasMembers links cells) {links' : LinkTable}
    (same : ∀ i ∈ cells, links'[i]? = links[i]?) : chain.HasMembers links' cells where
  nodup := h.nodup
  first_eq := h.first_eq
  last_eq := h.last_eq
  joins front i back hcells := by
    rw [same i (by simp [hcells]), h.joins front i back hcells]

end HasMembers

/-! ## Sizes -/

@[simp] theorem size_push (chain : Chain) (links : LinkTable) (i : Nat) :
    (chain.push links i).2.size = links.size := by
  rw [push]
  split <;> simp

@[simp] theorem size_unlink (chain : Chain) (links : LinkTable) (i : Nat) :
    (chain.unlink links i).2.size = links.size := by
  simp only [unlink]
  split <;> split <;> simp

/-! ## Appending -/

namespace HasMembers

variable {chain : Chain} {links : LinkTable} {cells : List Nat}

/-- Appending touches the links of the members and of the cell appended, and no other. -/
theorem getElem?_push (h : chain.HasMembers links cells) {i j : Nat} (hij : i ≠ j)
    (hj : j ∉ cells) : (chain.push links i).2[j]? = links[j]? := by
  rw [Chain.push]
  split
  next => exact LinkTable.getElem?_setLink_ne hij _
  next last hlast =>
    have hne : last ≠ j := fun e ↦
      hj (e ▸ List.mem_of_getLast? (h.last_eq.symm.trans hlast))
    simp [hij, hne]

/-- The last member gets the new one behind it, and the new one gets the last in front of it. -/
theorem joins_push (h : chain.HasMembers links cells) {i : Nat} (hi : i ∉ cells)
    (hlt : i < links.size) : (chain.push links i).2.Joins (cells ++ [i]) := by
  intro front j back hcells
  rcases List.eq_nil_or_concat back with rfl | ⟨back, k, rfl⟩
  · obtain ⟨rfl, hj⟩ := List.append_inj' hcells rfl
    obtain rfl : i = j := by simpa using hj
    rw [Chain.push]
    split
    next hlast =>
      rw [LinkTable.getElem?_setLink_self hlt, ← h.last_eq, hlast]
      rfl
    next last hlast =>
      rw [LinkTable.getElem?_setLink_self (by simpa), ← h.last_eq, hlast]
      rfl
  · rw [List.concat_eq_append, ← List.cons_append, ← List.append_assoc] at hcells
    obtain ⟨hmem, hk⟩ := List.append_inj' hcells rfl
    obtain rfl : i = k := by simpa using hk
    have hj : j ∈ cells := by simp [hmem]
    have hij : i ≠ j := fun e ↦ hi (e ▸ hj)
    have hlink := h.joins front j back hmem
    rw [Chain.push]
    split
    next hlast =>
      rw [List.getLast?_eq_none_iff.mp (h.last_eq.symm.trans hlast)] at hj
      simp at hj
    next last hlast =>
      rw [LinkTable.getElem?_setLink_ne hij, LinkTable.getElem?_setNext, hlink]
      have hlast : (front ++ j :: back).getLast? = some last :=
        hmem ▸ h.last_eq.symm.trans hlast
      cases back with
      | nil => simp_all
      | cons b back =>
        have hne : last ≠ j := by
          rintro rfl
          have hnodup := (List.nodup_append.mp (hmem ▸ h.nodup)).2.1
          refine (List.nodup_cons.mp hnodup).1 (List.mem_of_getLast? ?_)
          simpa using hlast
        simp [hne]

/-- A cell that is appended becomes the last member. -/
theorem push (h : chain.HasMembers links cells) {i : Nat} (hi : i ∉ cells)
    (hlt : i < links.size) :
    (chain.push links i).1.HasMembers (chain.push links i).2 (cells ++ [i]) where
  nodup := by simpa [List.nodup_append] using ⟨h.nodup, fun j hj e ↦ hi (e ▸ hj)⟩
  first_eq := by
    rw [Chain.push]
    split
    next hlast =>
      have : cells = [] := List.getLast?_eq_none_iff.mp (h.last_eq.symm.trans hlast)
      simp [this]
    next last hlast =>
      have : cells ≠ [] := by
        rintro rfl
        simp [h.last_eq] at hlast
      simp [h.first_eq, List.head?_append, List.head?_eq_some_head this]
  last_eq := by
    rw [Chain.push]
    split <;> simp
  joins := h.joins_push hi hlt

/-! ## Taking out -/

/-- Taking out a member links its neighbours to each other. All other links stay as they are, but
for its own, which it loses. -/
theorem getElem?_unlink {front back : List Nat} {i : Nat}
    (h : chain.HasMembers links (front ++ i :: back)) (j : Nat) :
    (chain.unlink links i).2[j]? =
      if i = j then some {}
      else links[j]?.map fun link ↦
        { prev := if back.head? = some j then front.getLast? else link.prev
          next := if front.getLast? = some j then back.head? else link.next } := by
  have hlink := h.joins front i back rfl
  have hlt : i < links.size := h.lt_size (by simp)
  simp only [Chain.unlink, Array.getD_eq_getD_getElem?, hlink, Option.getD_some]
  by_cases hij : i = j
  · subst hij
    rw [if_pos rfl, LinkTable.getElem?_setLink_self]
    cases front.getLast? <;> cases back.head? <;> simpa
  · rw [LinkTable.getElem?_setLink_ne hij, if_neg hij]
    cases front.getLast? <;> cases back.head? <;> simp [Function.comp_def]

/-- A cell that is taken out has no neighbours. -/
theorem getElem?_unlink_self (h : chain.HasMembers links cells) {i : Nat} (hi : i ∈ cells) :
    (chain.unlink links i).2[i]? = some {} := by
  obtain ⟨front, back, rfl⟩ := List.append_of_mem hi
  rw [h.getElem?_unlink, if_pos rfl]

/-- Taking out a member touches the links of members, and no other. -/
theorem getElem?_unlink_of_notMem (h : chain.HasMembers links cells) {i : Nat} (hi : i ∈ cells)
    {j : Nat} (hj : j ∉ cells) : (chain.unlink links i).2[j]? = links[j]? := by
  obtain ⟨front, back, rfl⟩ := List.append_of_mem hi
  have hij : i ≠ j := fun e ↦ hj (e ▸ hi)
  have hfront : front.getLast? ≠ some j := fun e ↦ hj (by simp [List.mem_of_getLast? e])
  have hback : back.head? ≠ some j := fun e ↦ hj (by simp [List.mem_of_head? e])
  simp [h.getElem?_unlink, hij, hfront, hback]

/-- A member in front of the one taken out sees the members beyond it. -/
theorem getElem?_unlink_front {front middle back : List Nat} {i j : Nat}
    (h : chain.HasMembers links (front ++ j :: (middle ++ i :: back))) :
    (chain.unlink links i).2[j]? =
      some { prev := front.getLast?, next := (middle ++ back).head? } := by
  have hlink := h.joins front j (middle ++ i :: back) rfl
  obtain ⟨-, hnodup, -⟩ := List.nodup_append.mp h.nodup
  have hj : j ∉ middle ++ i :: back := (List.nodup_cons.mp hnodup).1
  rw [← List.cons_append, ← List.append_assoc] at h
  rw [h.getElem?_unlink, hlink]
  have hij : i ≠ j := by rintro rfl; simp at hj
  have hback : back.head? ≠ some j := fun e ↦ hj (by simp [List.mem_of_head? e])
  cases middle with
  | nil => simp [hij, hback]
  | cons k middle =>
    have hlast : (k :: middle).getLast? ≠ some j := fun e ↦
      hj (List.mem_append_left _ (List.mem_of_getLast? e))
    simp [hij, hback, hlast]

/-- A member behind the one taken out sees the members beyond it. -/
theorem getElem?_unlink_back {front middle back : List Nat} {i j : Nat}
    (h : chain.HasMembers links (front ++ i :: (middle ++ j :: back))) :
    (chain.unlink links i).2[j]? =
      some { prev := (front ++ middle).getLast?, next := back.head? } := by
  have hlink := h.joins (front ++ i :: middle) j back (by simp)
  obtain ⟨-, hnodup, hdisjoint⟩ := List.nodup_append.mp h.nodup
  have hij : i ≠ j := by
    rintro rfl
    simp at hnodup
  have hfront : front.getLast? ≠ some j := fun e ↦
    hdisjoint j (List.mem_of_getLast? e) j (by simp) rfl
  rw [h.getElem?_unlink, hlink]
  cases middle with
  | nil => simp [hij, hfront]
  | cons k middle =>
    have hkj : k ≠ j := by
      rintro rfl
      simp at hnodup
    simp [hij, hfront, hkj]

/-- What is left is linked across the gap. -/
theorem joins_unlink {front back : List Nat} {i : Nat}
    (h : chain.HasMembers links (front ++ i :: back)) :
    (chain.unlink links i).2.Joins (front ++ back) := by
  intro f j b hcells
  rcases List.append_eq_append_iff.mp hcells with ⟨middle, rfl, rfl⟩ | ⟨middle, rfl, hmiddle⟩
  · exact h.getElem?_unlink_back
  · cases middle with
    | nil =>
      obtain rfl : j :: b = back := hmiddle
      have h : chain.HasMembers links (f ++ i :: ([] ++ j :: b)) := by simpa using h
      simpa using h.getElem?_unlink_back
    | cons k middle =>
      obtain ⟨rfl, rfl⟩ := List.cons.inj hmiddle
      exact getElem?_unlink_front (by simpa using h)

/-- The members in front of the one taken out and those behind it are what is left. -/
theorem unlink_append {front back : List Nat} {i : Nat}
    (h : chain.HasMembers links (front ++ i :: back)) :
    (chain.unlink links i).1.HasMembers (chain.unlink links i).2 (front ++ back) where
  nodup := h.nodup.sublist (by simp)
  first_eq := by
    have hlink := h.joins front i back rfl
    have hfirst := h.first_eq
    simp only [Chain.unlink, Array.getD_eq_getD_getElem?, hlink, Option.getD_some]
    cases front <;> simp_all [List.getLast?_cons]
  last_eq := by
    have hlink := h.joins front i back rfl
    have hlast := h.last_eq
    simp only [Chain.unlink, Array.getD_eq_getD_getElem?, hlink, Option.getD_some]
    cases back <;> simp_all
  joins := h.joins_unlink

/-- A member that is taken out leaves the others in their order. -/
theorem unlink (h : chain.HasMembers links cells) {i : Nat} (hi : i ∈ cells) :
    (chain.unlink links i).1.HasMembers (chain.unlink links i).2 (cells.erase i) := by
  obtain ⟨front, back, rfl⟩ := List.append_of_mem hi
  have hfront : i ∉ front := fun hmem ↦
    (List.nodup_append.mp h.nodup).2.2 i hmem i (by simp) rfl
  rw [List.erase_append_right _ hfront, List.erase_cons_head]
  exact h.unlink_append

end HasMembers

end Chain

end RideShare
