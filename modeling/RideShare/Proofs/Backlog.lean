import Mathlib.Data.List.Nodup
import RideShare.Backlog
import RideShare.Proofs.NodePool

/-!
# The backlog as a list of parties

Chain, index, histogram and pool tell the same list of parties in four ways. `Backlog.Sound` says
that they do, and every operation is then described by what it does to that list alone.

The list itself is computed, by `Backlog.toList`, so the relation needs no list as an argument and
no party is named twice.

## Main statements

* `Backlog.Sound.toList_enqueue` and `Backlog.Sound.toList_dequeue`: joining and leaving, as
  operations on the list;
* `Backlog.Sound.contains_iff`, `Backlog.Sound.countOfSize_eq` and `Backlog.Sound.anyFits_iff`: what
  can be asked without walking along the chain is answered as if somebody had.
-/

namespace RideShare

/-- Changing one count leaves the others. -/
theorem getD_modify {α : Type} {counts : Array α} {i j : Nat} (hi : i = j → i < counts.size)
    (f : α → α) (a : α) :
    (counts.modify i f).getD j a = if i = j then f (counts.getD j a) else counts.getD j a := by
  rw [Array.getD_eq_getD_getElem?, Array.getD_eq_getD_getElem?, Array.getElem?_modify]
  by_cases hij : i = j
  · subst hij
    simp [hi]
  · simp [hij]

namespace Backlog

/-- The nodes in which the parties wait, the oldest party first. -/
def cells (backlog : Backlog) : List Nat := backlog.chain.toList backlog.pool.links

theorem toList_eq_map (backlog : Backlog) :
    backlog.toList = backlog.cells.map backlog.pool.get := rfl

/-- Chain, pool, index and histogram agree on who waits. -/
structure Sound (backlog : Backlog) : Prop where
  /-- The nodes are chained up. -/
  members : backlog.chain.HasMembers backlog.pool.links backlog.cells
  /-- They are the nodes in use. -/
  pool : ∃ free, backlog.pool.Sound backlog.cells free
  /-- The index finds the node of every waiting party, and no other. -/
  index_eq : ∀ id i,
    backlog.index[id]? = some i ↔ i ∈ backlog.cells ∧ (backlog.pool.get i).id = id
  /-- Parties have a size that parties have. -/
  isSeatCount_size : ∀ party ∈ backlog.toList, isSeatCount party.size
  /-- There is a count for every size. -/
  size_histogram : backlog.histogram.size = seatLevels
  /-- It is the number of parties of that size. -/
  histogram_eq : ∀ level,
    backlog.histogram.getD level 0 = backlog.toList.countP (·.size.toNat = level)

namespace Sound

variable {backlog : Backlog}

/-! ## Who waits -/

/-- No two nodes hold parties with the same id. -/
theorem eq_of_id_eq (h : backlog.Sound) {i j : Nat} (hi : i ∈ backlog.cells)
    (hj : j ∈ backlog.cells) (hid : (backlog.pool.get i).id = (backlog.pool.get j).id) : i = j := by
  have hi := (h.index_eq _ i).mpr ⟨hi, hid⟩
  have hj := (h.index_eq _ j).mpr ⟨hj, rfl⟩
  exact Option.some.inj (hi.symm.trans hj)

theorem nodup_ids (h : backlog.Sound) : (backlog.toList.map Party.id).Nodup := by
  rw [toList_eq_map, List.map_map]
  exact List.Nodup.map_on (fun i hi j hj hid ↦ h.eq_of_id_eq hi hj hid) h.members.nodup

/-- A waiting party is known by its id. -/
theorem eq_of_mem (h : backlog.Sound) {p q : Party} (hp : p ∈ backlog.toList)
    (hq : q ∈ backlog.toList) (hid : p.id = q.id) : p = q :=
  List.inj_on_of_nodup_map h.nodup_ids hp hq hid

theorem contains_iff (h : backlog.Sound) {id : UInt64} :
    backlog.contains id = true ↔ ∃ party ∈ backlog.toList, party.id = id := by
  rw [contains, ← Std.HashMap.isSome_getElem?_eq_contains, Option.isSome_iff_exists]
  simp only [h.index_eq, toList_eq_map, List.mem_map, exists_exists_and_eq_and]

/-- Parties are of one to six people. -/
theorem size_bounds (h : backlog.Sound) {party : Party} (hparty : party ∈ backlog.toList) :
    1 ≤ party.size.toNat ∧ party.size.toNat ≤ 6 :=
  isSeatCount_iff.mp (h.isSeatCount_size party hparty)

theorem size_eq (h : backlog.Sound) : backlog.size = backlog.toList.length := by
  have hperm : backlog.index.keys.Perm (backlog.toList.map Party.id) := by
    refine (List.perm_ext_iff_of_nodup Std.HashMap.nodup_keys h.nodup_ids).mpr fun id ↦ ?_
    rw [Std.HashMap.mem_keys, List.mem_map]
    exact Std.HashMap.contains_iff_mem.symm.trans h.contains_iff
  rw [size, ← Std.HashMap.length_keys, hperm.length_eq, List.length_map]

theorem isEmpty_iff (h : backlog.Sound) : backlog.isEmpty = true ↔ backlog.toList = [] := by
  rw [isEmpty, h.members.first_eq, toList_eq_map]
  cases backlog.cells <;> simp

theorem toListRev_eq (h : backlog.Sound) : backlog.toListRev = backlog.toList.reverse := by
  rw [toListRev, h.members.toListRev_eq, toList_eq_map, List.map_reverse]

/-! ## How many of each size -/

theorem countOfSize_eq (h : backlog.Sound) (size : UInt32) :
    backlog.countOfSize size = backlog.toList.countP (·.size = size) := by
  rw [countOfSize, h.histogram_eq]
  exact List.countP_congr fun party _ ↦ by simp [UInt32.toNat_inj]

/-- The histogram knows whether some waiting party is small enough. -/
theorem anyFits_iff (h : backlog.Sound) {seats : UInt32} :
    backlog.anyFits seats = true ↔ ∃ party ∈ backlog.toList, party.size ≤ seats := by
  have hmin : (min seats maxSeats).toNat = min seats.toNat 6 := by
    rw [UInt32.toNat_min]
    rfl
  simp only [anyFits, List.any_eq_true, List.mem_range'_1, hmin, h.histogram_eq,
    decide_eq_true_eq, List.countP_pos_iff, UInt32.le_iff_toNat_le]
  constructor
  · rintro ⟨size, ⟨-, hsize⟩, party, hparty, rfl⟩
    exact ⟨party, hparty, by omega⟩
  · rintro ⟨party, hparty, hle⟩
    have := h.size_bounds hparty
    exact ⟨party.size.toNat, by omega, party, hparty, rfl⟩

end Sound

/-! ## Emptying -/

/-- A backlog without anybody is sound if its nodes are. -/
private theorem sound_empty {pool : NodePool} {free : List Nat} (hpool : pool.Sound [] free) :
    Sound { pool } ∧ toList { pool } = [] := by
  have hcells : cells { pool } = [] := (Chain.hasMembers_nil pool.links).toList_eq
  have hlist : toList { pool } = [] := by rw [toList_eq_map, hcells, List.map_nil]
  refine ⟨⟨?_, ⟨free, ?_⟩, fun id i ↦ ?_, ?_, rfl, fun level ↦ ?_⟩, hlist⟩
  · rw [hcells]
    exact Chain.hasMembers_nil pool.links
  · rwa [hcells]
  · simp [hcells]
  · simp [hlist]
  · rw [hlist, Array.getD_eq_getD_getElem?, Array.getElem?_replicate]
    split <;> rfl

theorem sound_ofReserve (reserve : Nat) : (ofReserve reserve).Sound :=
  (sound_empty (NodePool.Sound.ofCapacity reserve)).1

@[simp] theorem toList_ofReserve (reserve : Nat) : (ofReserve reserve).toList = [] :=
  (sound_empty (NodePool.Sound.ofCapacity reserve)).2

namespace Sound

variable {backlog : Backlog}

theorem clear (h : backlog.Sound) : backlog.clear.Sound := by
  obtain ⟨free, hfree⟩ := h.pool
  exact (sound_empty hfree.reset).1

theorem toList_clear (h : backlog.Sound) : backlog.clear.toList = [] := by
  obtain ⟨free, hfree⟩ := h.pool
  exact (sound_empty hfree.reset).2

end Sound

/-! ## Joining -/

/-- The backlog that a party has joined. -/
private def joined (backlog : Backlog) (party : Party) : Backlog :=
  let taken := backlog.pool.take
  let linked := (taken.2.put taken.1 party).relink (backlog.chain.push · taken.1)
  { pool := linked.2
    chain := linked.1
    index := backlog.index.insert party.id taken.1
    histogram := backlog.histogram.modify party.size.toNat (· + 1) }

private theorem enqueue_eq (backlog : Backlog) (party : Party) :
    backlog.enqueue party =
      if isSeatCount party.size && !backlog.contains party.id then (true, backlog.joined party)
      else (false, backlog) := by
  by_cases hsize : isSeatCount party.size = true <;>
    by_cases hold : backlog.contains party.id = true <;> simp [enqueue, joined, hsize, hold]

/-- A party joins unless it waits already or has no proper size. -/
theorem fst_enqueue (backlog : Backlog) (party : Party) :
    (backlog.enqueue party).1 = (isSeatCount party.size && !backlog.contains party.id) := by
  rw [enqueue_eq]
  split <;> simp_all

/-- A party that does not join leaves the backlog as it was. -/
theorem enqueue_of_refused {backlog : Backlog} {party : Party}
    (h : (backlog.enqueue party).1 = false) : (backlog.enqueue party).2 = backlog := by
  rw [enqueue_eq] at h ⊢
  split <;> simp_all

namespace Sound

variable {backlog : Backlog} {party : Party}

/-- The party that joins is in the node behind all others, and they are where they were. -/
private theorem cells_joined (h : backlog.Sound) (party : Party) :
    (backlog.joined party).chain.HasMembers (backlog.joined party).pool.links
        (backlog.cells ++ [backlog.pool.take.1]) ∧
      (∃ free, (backlog.joined party).pool.Sound (backlog.cells ++ [backlog.pool.take.1]) free) ∧
      (backlog.joined party).pool.get backlog.pool.take.1 = party ∧
      ∀ i ∈ backlog.cells, (backlog.joined party).pool.get i = backlog.pool.get i := by
  obtain ⟨free, hpool⟩ := h.pool
  obtain ⟨rest, htake, hnew, hsame⟩ := hpool.take
  have hlt : backlog.pool.take.1 < backlog.pool.take.2.nodes.size :=
    htake.lt_size_of_used (by simp)
  have hmembers : backlog.chain.HasMembers backlog.pool.take.2.links backlog.cells :=
    h.members.congr fun i hi ↦ (hsame i hi).1
  refine ⟨hmembers.push hnew (htake.size_links ▸ hlt), ⟨rest, ?_⟩, ?_, fun i hi ↦ ?_⟩
  · refine (htake.put _ party).relink (backlog.chain.push · backlog.pool.take.1)
      (Chain.size_push ..) fun j hj ↦ ?_
    have hj : j ∉ backlog.cells ++ [backlog.pool.take.1] := htake.notMem_used hj
    rw [List.mem_append, List.mem_singleton, not_or] at hj
    exact hmembers.getElem?_push (Ne.symm hj.2) hj.1
  · exact (NodePool.get_put _ hlt party).trans (if_pos rfl)
  · have hne : backlog.pool.take.1 ≠ i := fun e ↦ hnew (e ▸ hi)
    refine (NodePool.get_put _ hlt party).trans ?_
    rw [if_neg hne, (hsame i hi).2]

private theorem toList_joined (h : backlog.Sound) (party : Party) :
    (backlog.joined party).toList = backlog.toList ++ [party] := by
  obtain ⟨hmembers, -, hnew, hsame⟩ := h.cells_joined party
  rw [toList_eq_map, cells, hmembers.toList_eq, List.map_append, List.map_singleton, hnew,
    List.map_congr_left hsame, ← toList_eq_map]

private theorem joined (h : backlog.Sound) (hsize : isSeatCount party.size = true)
    (hnew : backlog.contains party.id = false) : (backlog.joined party).Sound := by
  obtain ⟨hmembers, hpool, hlast, hsame⟩ := h.cells_joined party
  have hcells : (backlog.joined party).cells = backlog.cells ++ [backlog.pool.take.1] :=
    hmembers.toList_eq
  have hbounds := isSeatCount_iff.mp hsize
  refine ⟨by rwa [hcells], by rwa [hcells], fun id i ↦ ?_, fun p hp ↦ ?_, ?_, fun level ↦ ?_⟩
  · have hindex : (backlog.joined party).index[id]? =
        if party.id == id then some backlog.pool.take.1 else backlog.index[id]? :=
      Std.HashMap.getElem?_insert
    rw [hindex, hcells, List.mem_append, List.mem_singleton]
    -- Whoever is found in an old node waited before, and whoever is found in the new one did not.
    by_cases hid : party.id = id
    · rw [if_pos (by simpa using hid), Option.some.injEq]
      constructor
      · rintro rfl
        exact ⟨.inr rfl, by rw [hlast, hid]⟩
      · rintro ⟨hi | hi, hget⟩
        · rw [hsame i hi] at hget
          have hwaits := h.contains_iff.mpr ⟨_, List.mem_map_of_mem hi, hget.trans hid.symm⟩
          exact absurd hwaits (by simp [hnew])
        · exact hi.symm
    · rw [if_neg (by simpa using hid), h.index_eq]
      constructor
      · rintro ⟨hi, hget⟩
        exact ⟨.inl hi, hsame i hi ▸ hget⟩
      · rintro ⟨hi | rfl, hget⟩
        · exact ⟨hi, hsame i hi ▸ hget⟩
        · exact absurd (by rw [← hget, hlast]) hid
  · rw [h.toList_joined, List.mem_append, List.mem_singleton] at hp
    rcases hp with hp | rfl
    · exact h.isSeatCount_size p hp
    · exact hsize
  · simp [Backlog.joined, h.size_histogram]
  · have hlevel : party.size.toNat < backlog.histogram.size := by
      rw [h.size_histogram, seatLevels]
      omega
    rw [h.toList_joined, List.countP_append, ← h.histogram_eq, List.countP_singleton]
    refine (getD_modify (fun _ ↦ hlevel) _ 0).trans ?_
    split <;> simp_all

theorem enqueue (h : backlog.Sound) (party : Party) : (backlog.enqueue party).2.Sound := by
  rw [enqueue_eq]
  split
  next hjoins =>
    rw [Bool.and_eq_true, Bool.not_eq_true'] at hjoins
    exact h.joined hjoins.1 hjoins.2
  next => exact h

/-- Who joins stands behind everybody else. -/
theorem toList_enqueue (h : backlog.Sound) (hjoins : (backlog.enqueue party).1 = true) :
    (backlog.enqueue party).2.toList = backlog.toList ++ [party] := by
  rw [fst_enqueue] at hjoins
  rw [enqueue_eq, if_pos hjoins]
  exact h.toList_joined party

end Sound

/-! ## Leaving -/

/-- The backlog that the party in node `i` has left. -/
private def left (backlog : Backlog) (id : UInt64) (i : Nat) : Backlog :=
  let unlinked := backlog.pool.relink (backlog.chain.unlink · i)
  { pool := unlinked.2.give i
    chain := unlinked.1
    index := backlog.index.erase id
    histogram := backlog.histogram.modify (backlog.pool.get i).size.toNat (· - 1) }

private theorem dequeue_eq (backlog : Backlog) (id : UInt64) :
    backlog.dequeue id = match backlog.index[id]? with
      | none => (false, backlog)
      | some i => (true, backlog.left id i) := rfl

theorem fst_dequeue (backlog : Backlog) (id : UInt64) :
    (backlog.dequeue id).1 = backlog.contains id := by
  rw [dequeue_eq, contains, ← Std.HashMap.isSome_getElem?_eq_contains]
  cases backlog.index[id]? <;> rfl

/-- If nobody leaves, the backlog is as it was. -/
theorem dequeue_of_refused {backlog : Backlog} {id : UInt64}
    (h : (backlog.dequeue id).1 = false) : (backlog.dequeue id).2 = backlog := by
  rw [dequeue_eq] at h ⊢
  cases hindex : backlog.index[id]? <;> simp_all

namespace Sound

variable {backlog : Backlog}

private theorem cells_left (h : backlog.Sound) {i : Nat} (hi : i ∈ backlog.cells) (id : UInt64) :
    (backlog.left id i).chain.HasMembers (backlog.left id i).pool.links (backlog.cells.erase i) ∧
      ∃ free, (backlog.left id i).pool.Sound (backlog.cells.erase i) free := by
  obtain ⟨free, hpool⟩ := h.pool
  have hunlinked : (backlog.pool.relink (backlog.chain.unlink · i)).2.Sound backlog.cells free :=
    hpool.relink _ (Chain.size_unlink ..) fun j hj ↦
      h.members.getElem?_unlink_of_notMem hi (hpool.notMem_used hj)
  refine ⟨(h.members.unlink hi).congr fun j hj ↦ ?_, i :: free, hunlinked.give hi⟩
  have hij : i ≠ j := fun e ↦ h.members.nodup.not_mem_erase (e ▸ hj)
  exact LinkTable.getElem?_setLink_ne hij _

/-- The node a party leaves is the one that held it. -/
private theorem toList_left (h : backlog.Sound) {id : UInt64} {i : Nat}
    (hi : backlog.index[id]? = some i) :
    (backlog.left id i).toList = backlog.toList.filter (·.id ≠ id) := by
  obtain ⟨hmem, hid⟩ := (h.index_eq id i).mp hi
  have hcells : (backlog.left id i).cells = backlog.cells.erase i :=
    (h.cells_left hmem id).1.toList_eq
  rw [toList_eq_map, hcells, toList_eq_map, List.filter_map, h.members.nodup.erase_eq_filter]
  refine congrArg (List.map backlog.pool.get) (List.filter_congr fun j hj ↦ ?_)
  have : j = i ↔ (backlog.pool.get j).id = id := by
    refine ⟨fun e ↦ e ▸ hid, fun e ↦ h.eq_of_id_eq hj hmem (e.trans hid.symm)⟩
  rw [Bool.eq_iff_iff]
  simp [this]

/-- The party that leaves is the only one missing. -/
private theorem perm_left (h : backlog.Sound) (id : UInt64) {i : Nat} (hi : i ∈ backlog.cells) :
    backlog.toList.Perm (backlog.pool.get i :: (backlog.left id i).toList) := by
  have hcells : (backlog.left id i).cells = backlog.cells.erase i :=
    (h.cells_left hi id).1.toList_eq
  rw [toList_eq_map, toList_eq_map, hcells]
  exact (List.perm_cons_erase hi).map backlog.pool.get

private theorem left (h : backlog.Sound) {id : UInt64} {i : Nat}
    (hi : backlog.index[id]? = some i) : (backlog.left id i).Sound := by
  obtain ⟨hmem, hid⟩ := (h.index_eq id i).mp hi
  obtain ⟨hmembers, hpool⟩ := h.cells_left hmem id
  have hcells : (backlog.left id i).cells = backlog.cells.erase i := hmembers.toList_eq
  refine ⟨by rwa [hcells], by rwa [hcells], fun id' j ↦ ?_, fun p hp ↦ ?_, ?_, fun level ↦ ?_⟩
  · have hindex : (backlog.left id i).index[id']? =
        if id == id' then none else backlog.index[id']? := Std.HashMap.getElem?_erase
    have hget : (backlog.left id i).pool.get j = backlog.pool.get j := rfl
    rw [hindex, hcells, hget, h.members.nodup.mem_erase_iff]
    by_cases hid' : id = id'
    · rw [if_pos (by simpa using hid')]
      refine iff_of_false (by simp) fun ⟨⟨hji, hj⟩, hget⟩ ↦ hji ?_
      exact h.eq_of_id_eq hj hmem (by rw [hget, hid, hid'])
    · rw [if_neg (by simpa using hid'), h.index_eq]
      have hji : (backlog.pool.get j).id = id' → j ≠ i := fun hj hji ↦
        hid' (by rw [← hid, ← hj, hji])
      exact ⟨fun hj ↦ ⟨⟨hji hj.2, hj.1⟩, hj.2⟩, fun hj ↦ ⟨hj.1.2, hj.2⟩⟩
  · rw [h.toList_left hi] at hp
    exact h.isSeatCount_size p (List.mem_of_mem_filter hp)
  · simp [Backlog.left, h.size_histogram]
  · have hparty : backlog.pool.get i ∈ backlog.toList := List.mem_map_of_mem hmem
    have hbounds := h.size_bounds hparty
    have hlevel : (backlog.pool.get i).size.toNat < backlog.histogram.size := by
      rw [h.size_histogram, seatLevels]
      omega
    have hcount := (h.perm_left id hmem).countP_eq (·.size.toNat = level)
    rw [List.countP_cons] at hcount
    refine (getD_modify (fun _ ↦ hlevel) _ 0).trans ?_
    rw [h.histogram_eq, hcount]
    split <;> simp_all

theorem dequeue (h : backlog.Sound) (id : UInt64) : (backlog.dequeue id).2.Sound := by
  rw [dequeue_eq]
  split
  next => exact h
  next i hi => exact h.left hi

/-- Who leaves is missing, and everybody else keeps their place. -/
theorem toList_dequeue (h : backlog.Sound) (id : UInt64) :
    (backlog.dequeue id).2.toList = backlog.toList.filter (·.id ≠ id) := by
  rw [dequeue_eq]
  split
  next hnone =>
    have hid : ∀ party ∈ backlog.toList, party.id ≠ id := fun party hparty hid ↦ by
      have := h.contains_iff.mpr ⟨party, hparty, hid⟩
      rw [contains, ← Std.HashMap.isSome_getElem?_eq_contains, hnone] at this
      simp at this
    exact (List.filter_eq_self.mpr fun party hparty ↦ by simpa using hid party hparty).symm
  next i hi => exact h.toList_left hi

end Sound

end Backlog

end RideShare
