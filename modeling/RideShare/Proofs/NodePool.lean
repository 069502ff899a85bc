import RideShare.Chain.Members
import RideShare.NodePool

/-!
# Which nodes of a pool are in use

The nodes of a pool are those in use and those that are free, and no node is both. The free ones
hang together by `next` links alone, so the relation that describes them, `LinkTable.Leads`, is
weaker than that of a chain: it says where the links lead, and nothing about the way back.

The nodes in use are listed in the order in which they were taken. What they are linked to is not
the pool's business; it only promises not to touch their links.

## Main statements

* `NodePool.Sound.take`: a node that is taken was not in use, comes blank, and the nodes in use
  keep what they hold and what they are linked to;
* `NodePool.Sound.give` and `NodePool.Sound.reset`: nodes that are given back are free again.
-/

namespace RideShare

namespace LinkTable

/-- Following `next` from `start` on meets exactly the cells listed, and then ends. -/
inductive Leads (links : LinkTable) : Option Nat → List Nat → Prop
  | nil : Leads links none []
  | cons {i : Nat} {rest : List Nat} (hlt : i < links.size)
      (hrest : Leads links (links.next? i) rest) : Leads links (some i) (i :: rest)

variable {links links' : LinkTable} {start : Option Nat} {cells : List Nat}

theorem next?_congr {i : Nat} (same : links'[i]? = links[i]?) : links'.next? i = links.next? i := by
  simp [next?, Array.getD_eq_getD_getElem?, same]

theorem lt_size_congr {i : Nat} (same : links'[i]? = links[i]?) (h : i < links.size) :
    i < links'.size := by
  rw [Array.getElem?_eq_getElem h] at same
  exact (Array.getElem?_eq_some_iff.mp same).1

/-- Where the links lead hangs on the links of the cells that are met, and on no other. -/
theorem Leads.congr (h : links.Leads start cells)
    (same : ∀ i ∈ cells, links'[i]? = links[i]?) : links'.Leads start cells := by
  induction h with
  | nil => exact .nil
  | @cons i rest hlt _ ih =>
    have hi : links'[i]? = links[i]? := same i (by simp)
    refine .cons (lt_size_congr hi hlt) ?_
    rw [next?_congr hi]
    exact ih fun j hj ↦ same j (by simp [hj])

/-- Cells linked by ascending number lead on to whatever follows the last of them. -/
theorem leads_range' (first count : Nat) {rest : Option Nat}
    (hnext : ∀ k < count,
      links.next? (first + k) = if k + 1 < count then some (first + k + 1) else rest)
    (hlt : first + count ≤ links.size) (hrest : links.Leads rest cells) :
    links.Leads (if count = 0 then rest else some first) (List.range' first count ++ cells) := by
  induction count generalizing first with
  | zero => simpa using hrest
  | succ count ih =>
    have htail := ih (first + 1)
      (fun k hk ↦ by
        have := hnext (k + 1) (by omega)
        rw [show first + 1 + k = first + (k + 1) by omega, this]
        simp [show (k + 1 + 1 < count + 1) = (k + 1 < count) by simp])
      (by omega)
    rw [if_neg (Nat.succ_ne_zero count), List.range'_succ, List.cons_append]
    refine .cons (by omega) ?_
    rw [show links.next? first = _ from hnext 0 (by omega)]
    rcases Nat.eq_zero_or_pos count with rfl | hcount
    · simpa using htail
    · rw [if_neg (by omega)] at htail
      simpa [hcount] using htail

theorem next?_ascending (first : Nat) {count : Nat} (rest : Option Nat) {k : Nat} (hk : k < count) :
    next? (NodePool.ascending first count rest) k =
      if k + 1 < count then some (first + k + 1) else rest := by
  simp [next?, NodePool.ascending, hk]

end LinkTable

namespace NodePool

@[simp] theorem size_ascending (first count : Nat) (rest : Option Nat) :
    (ascending first count rest).size = count := by
  simp [ascending]

@[simp] theorem size_nodes_put (pool : NodePool) (i : Nat) (party : Party) :
    (pool.put i party).nodes.size = pool.nodes.size := by
  simp [put]

/-- The nodes listed first are in use, the others are free and come out in the order of the
list. -/
structure Sound (pool : NodePool) (used free : List Nat) : Prop where
  /-- The pool grows when it has to. -/
  chunk_pos : 0 < pool.chunk
  /-- Every node has a link. -/
  size_links : pool.links.size = pool.nodes.size
  /-- The links lead through the free nodes. -/
  leads : pool.links.Leads pool.free free
  /-- Every node is in use or free, and none is both. -/
  perm : (used ++ free).Perm (List.range pool.nodes.size)
  /-- The nodes in use are counted. -/
  inUse_eq : pool.inUse = used.length

namespace Sound

variable {pool : NodePool} {used free : List Nat}

theorem nodup (h : pool.Sound used free) : (used ++ free).Nodup :=
  h.perm.nodup_iff.mpr List.nodup_range

theorem lt_size_of_used (h : pool.Sound used free) {i : Nat} (hi : i ∈ used) :
    i < pool.nodes.size :=
  List.mem_range.mp (h.perm.mem_iff.mp (List.mem_append_left free hi))

theorem lt_size_of_free (h : pool.Sound used free) {i : Nat} (hi : i ∈ free) :
    i < pool.nodes.size :=
  List.mem_range.mp (h.perm.mem_iff.mp (List.mem_append_right used hi))

theorem notMem_used (h : pool.Sound used free) {i : Nat} (hi : i ∈ free) : i ∉ used := fun hused ↦
  (List.nodup_append.mp h.nodup).2.2 i hused i hi rfl

theorem notMem_free (h : pool.Sound used free) {i : Nat} (hi : i ∈ used) : i ∉ free := fun hfree ↦
  h.notMem_used hfree hi

/-! ## Growing -/

/-- A new chunk stands in front of the free nodes. -/
theorem grow (h : pool.Sound used free) :
    pool.grow.Sound used (List.range' pool.nodes.size pool.chunk ++ free) := by
  have hchunk := h.chunk_pos
  have hsize := h.size_links
  have hold : pool.grow.links.Leads pool.free free := h.leads.congr fun i hi ↦ by
    have hi := h.lt_size_of_free hi
    simp only [NodePool.grow]
    rw [Array.getElem?_append_left (by omega)]
  refine ⟨hchunk, ?_, ?_, ?_, h.inUse_eq⟩
  · simp [NodePool.grow, hsize]
  · have hnew := LinkTable.leads_range' pool.nodes.size pool.chunk
      (fun k hk ↦ by
        rw [← LinkTable.next?_ascending _ _ hk]
        simp only [NodePool.grow, LinkTable.next?, Array.getD_eq_getD_getElem?]
        rw [Array.getElem?_append_right (by omega), hsize, Nat.add_sub_cancel_left])
      (by simp [NodePool.grow, hsize]) hold
    rwa [if_neg (by omega)] at hnew
  · have hrange : List.range (pool.nodes.size + pool.chunk) =
        List.range pool.nodes.size ++ List.range' pool.nodes.size pool.chunk := by
      have := @List.range'_append_1 0 pool.nodes.size pool.chunk
      rw [Nat.zero_add] at this
      rw [List.range_eq_range', List.range_eq_range', this]
    have : pool.grow.nodes.size = pool.nodes.size + pool.chunk := by simp [NodePool.grow]
    rw [this, hrange]
    calc used ++ (List.range' pool.nodes.size pool.chunk ++ free)
        |>.Perm (used ++ (free ++ List.range' pool.nodes.size pool.chunk)) :=
          List.perm_append_comm.append_left used
      _ |>.Perm (used ++ free ++ List.range' pool.nodes.size pool.chunk) :=
          .of_eq (List.append_assoc ..).symm
      _ |>.Perm (List.range pool.nodes.size ++ List.range' pool.nodes.size pool.chunk) :=
          h.perm.append_right _

/-! ## Taking -/

/-- The node that is taken comes blank and without neighbours, and the free nodes lose it. -/
theorem take_cons {i : Nat} {rest : List Nat} (h : pool.Sound used (i :: rest)) :
    pool.take = (i,
      { pool with
        nodes := pool.nodes.setIfInBounds i default
        links := pool.links.setLink i {}
        free := pool.links.next? i
        inUse := pool.inUse + 1 }) := by
  have hleads := h.leads
  cases hfree : pool.free with
  | none => rw [hfree] at hleads; cases hleads
  | some j =>
    rw [hfree] at hleads
    cases hleads
    simp [NodePool.take, hfree]

/-- When no node is free, one is taken from a new chunk. -/
theorem take_nil (h : pool.Sound used []) : pool.take = pool.grow.take := by
  have hleads := h.leads
  cases hfree : pool.free with
  | none => simp [NodePool.take, hfree, NodePool.grow]
  | some j => rw [hfree] at hleads; cases hleads

theorem sound_take_cons {i : Nat} {rest : List Nat} (h : pool.Sound used (i :: rest)) :
    pool.take.2.Sound (used ++ [i]) rest := by
  have hi : i < pool.links.size := h.size_links ▸ h.lt_size_of_free (by simp)
  have hrest : i ∉ rest := (List.nodup_cons.mp (List.nodup_append.mp h.nodup).2.1).1
  rw [h.take_cons]
  refine ⟨h.chunk_pos, ?_, ?_, ?_, ?_⟩
  · simpa using h.size_links
  · have hleads := h.leads
    generalize pool.free = start at hleads
    cases hleads with
    | cons _ hleads =>
      exact hleads.congr fun j hj ↦
        LinkTable.getElem?_setLink_ne (fun e : i = j ↦ hrest (e ▸ hj)) _
  · simpa using h.perm
  · simp [h.inUse_eq]

/-- A node that is taken was not in use, and the nodes in use are left alone. -/
theorem take (h : pool.Sound used free) : ∃ rest,
    pool.take.2.Sound (used ++ [pool.take.1]) rest ∧ pool.take.1 ∉ used ∧
      ∀ j ∈ used, pool.take.2.links[j]? = pool.links[j]? ∧ pool.take.2.get j = pool.get j := by
  -- The nodes in use lie in front of a new chunk, so growing first makes no difference to them.
  have hcons {pool : NodePool} {i : Nat} {rest : List Nat} (h : pool.Sound used (i :: rest)) :
      pool.take.2.Sound (used ++ [pool.take.1]) rest ∧ pool.take.1 ∉ used ∧
        ∀ j ∈ used, pool.take.2.links[j]? = pool.links[j]? ∧ pool.take.2.get j = pool.get j := by
    have hi : i ∉ used := h.notMem_used (by simp)
    refine ⟨?_, ?_, fun j hj ↦ ?_⟩
    · have hsound := h.sound_take_cons
      rwa [show i = pool.take.1 by rw [h.take_cons]] at hsound
    · rwa [h.take_cons]
    · have hij : i ≠ j := fun e ↦ hi (e ▸ hj)
      rw [h.take_cons]
      refine ⟨LinkTable.getElem?_setLink_ne hij _, ?_⟩
      simp [NodePool.get, Array.getD_eq_getD_getElem?, hij]
  cases free with
  | cons i rest => exact ⟨rest, hcons h⟩
  | nil =>
    have hgrow := h.grow
    obtain ⟨count, hcount⟩ := Nat.exists_eq_add_one_of_ne_zero (Nat.ne_of_gt h.chunk_pos)
    rw [hcount, List.range'_succ, List.cons_append] at hgrow
    obtain ⟨hsound, hnot, hsame⟩ := hcons hgrow
    rw [← h.take_nil] at hsound hnot hsame
    refine ⟨_, hsound, hnot, fun j hj ↦ ?_⟩
    have hj' := h.lt_size_of_used hj
    have hsize := h.size_links
    rw [(hsame j hj).1, (hsame j hj).2]
    constructor
    · simp only [NodePool.grow]
      rw [Array.getElem?_append_left (by omega)]
    · simp only [NodePool.get, NodePool.grow, Array.getD_eq_getD_getElem?]
      rw [Array.getElem?_append_left hj']

/-! ## Giving back -/

/-- A node that is given back is the next one to be taken. -/
theorem give (h : pool.Sound used free) {i : Nat} (hi : i ∈ used) :
    (pool.give i).Sound (used.erase i) (i :: free) := by
  have hlt : i < pool.links.size := h.size_links ▸ h.lt_size_of_used hi
  have hfree : i ∉ free := h.notMem_free hi
  refine ⟨h.chunk_pos, ?_, ?_, ?_, ?_⟩
  · simpa [NodePool.give] using h.size_links
  · have hself := LinkTable.getElem?_setLink_self hlt { next := pool.free }
    refine .cons (by simpa [NodePool.give] using hlt) ?_
    simp only [NodePool.give, LinkTable.next?, Array.getD_eq_getD_getElem?, hself]
    exact h.leads.congr fun j hj ↦
      LinkTable.getElem?_setLink_ne (fun e : i = j ↦ hfree (e ▸ hj)) _
  · calc used.erase i ++ i :: free
        |>.Perm (i :: (used.erase i ++ free)) := List.perm_middle
      _ |>.Perm (used ++ free) := ((List.perm_cons_erase hi).symm.append_right free)
      _ |>.Perm (List.range pool.nodes.size) := h.perm
  · simp [NodePool.give, h.inUse_eq, List.length_erase_of_mem hi]

/-- After a reset all nodes are free, by ascending number. -/
theorem reset (h : pool.Sound used free) : pool.reset.Sound [] (List.range pool.nodes.size) := by
  refine ⟨h.chunk_pos, by simp [NodePool.reset], ?_, .refl _, rfl⟩
  have hleads : pool.reset.links.Leads (if pool.nodes.size = 0 then none else some 0)
      (List.range' 0 pool.nodes.size ++ []) :=
    LinkTable.leads_range' 0 pool.nodes.size
      (fun k hk ↦ by
        rw [show pool.reset.links = ascending 0 pool.nodes.size none from rfl, Nat.zero_add k]
        simpa using LinkTable.next?_ascending 0 none hk)
      (by simp [NodePool.reset]) .nil
  rw [List.append_nil, ← List.range_eq_range'] at hleads
  have hfree : pool.reset.free = if pool.nodes.size = 0 then none else some 0 := by
    simp [NodePool.reset, Array.isEmpty]
  rwa [hfree]

theorem ofCapacity (capacity : Nat) :
    (NodePool.ofCapacity capacity).Sound [] (List.range (max capacity 1)) := by
  have hempty : NodePool.Sound { chunk := max capacity 1 } [] [] :=
    ⟨by simp only; omega, rfl, .nil, .refl _, rfl⟩
  simpa [NodePool.ofCapacity, List.range_eq_range'] using hempty.grow

/-! ## Working with the nodes in use -/

theorem put (h : pool.Sound used free) (i : Nat) (party : Party) :
    (pool.put i party).Sound used free where
  chunk_pos := h.chunk_pos
  size_links := h.size_links.trans (pool.size_nodes_put i party).symm
  leads := h.leads
  perm := by simpa using h.perm
  inUse_eq := h.inUse_eq

/-- Chains may run through the nodes in use as long as they leave the free ones alone. -/
theorem relink (h : pool.Sound used free) (f : LinkTable → Chain × LinkTable)
    (hsize : (f pool.links).2.size = pool.links.size)
    (same : ∀ i ∈ free, (f pool.links).2[i]? = pool.links[i]?) :
    (pool.relink f).2.Sound used free where
  chunk_pos := h.chunk_pos
  size_links := hsize.trans h.size_links
  leads := h.leads.congr same
  perm := h.perm
  inUse_eq := h.inUse_eq

end Sound

/-! ## What the nodes hold -/

theorem get_put (pool : NodePool) {i j : Nat} (hi : i < pool.nodes.size) (party : Party) :
    (pool.put i party).get j = if i = j then party else pool.get j := by
  simp only [get, put, Array.getD_eq_getD_getElem?, Array.getElem?_setIfInBounds]
  split <;> simp_all

end NodePool

end RideShare
