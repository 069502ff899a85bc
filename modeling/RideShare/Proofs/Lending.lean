import Mathlib.Algebra.Order.Floor.Div
import RideShare.Proofs.NodePool

/-!
# How nodes are lent

A pool lends its nodes, and those who use it can tell from what they got which one comes next. Of
the nodes given back it is the one given back last. If there is none, it is the first that has not
been lent yet, as nodes are lent by ascending number. After a reset nothing has been lent yet, and
the account starts over: a pool that has been reset cannot be told from a fresh one.

The users' account is `Loans`, kept beside the pool by what is seen of it, and `NodePool.Lends` says
that the two agree. Behind the nodes given back, the free nodes are exactly those not lent since the
last reset, by ascending number; so a pool runs dry only when all of its nodes are in use, and it
has as many chunks as are needed for the most nodes ever used at once.

## Main statements

* `NodePool.Lends.take_eq`: which node comes next, told from the account;
* `NodePool.Lends.apply` and `NodePool.Remembers.apply`: every operation keeps pool and account in
  step;
* `NodePool.lends_in_order`: what holds of a pool at any point of any permitted run.
-/

namespace RideShare.NodePool

/-! ## Operations -/

/-- An operation on a pool, with its arguments. -/
inductive Operation where
  /-- Take a node. -/
  | take
  /-- Give a node back, or none. -/
  | give (node? : Option Nat)
  /-- Write whatever one likes to a node. -/
  | write (i : Nat) (party : Party) (link : Link)
  /-- Take all nodes back. -/
  | reset

/-- The pool after an operation. -/
def apply (pool : NodePool) : Operation → NodePool
  | .take => pool.take.2
  | .give none => pool
  | .give (some i) => pool.give i
  | .write i party link => ((pool.put i party).relink fun links ↦ ({}, links.setLink i link)).2
  | .reset => pool.reset

/-- The node an operation hands out. -/
def hands? (pool : NodePool) : Operation → Option Nat
  | .take => some pool.take.1
  | _ => none

/-- The pool after some operations. -/
def run (pool : NodePool) (operations : List Operation) : NodePool := operations.foldl apply pool

/-- The nodes some operations hand out, one after the other. -/
def handsOut (pool : NodePool) : List Operation → List Nat
  | [] => []
  | operation :: rest => (pool.hands? operation).toList ++ (pool.apply operation).handsOut rest

/-! ## The users' account -/

/-- Note a node that has not been noted before. -/
def noted (nodes : List Nat) (i : Nat) : List Nat := if i ∈ nodes then nodes else nodes ++ [i]

/-- What is known of the nodes of a pool since the last reset. -/
structure Loans where
  /-- The nodes in use, in the order in which they were taken. -/
  out : List Nat := []
  /-- The nodes that were given back and not taken again, the last one first. -/
  returned : List Nat := []
  /-- The nodes that have been taken, in the order in which they first were. -/
  lent : List Nat := []

/-- What is known of the nodes of a pool since it was made. -/
structure History extends Loans where
  /-- The nodes ever taken, in the order in which they first were. -/
  known : List Nat := []
  /-- The most nodes that were in use at once. -/
  most : Nat := 0

namespace Loans

/-- The account after node `i` has been taken. -/
def taking (loans : Loans) (i : Nat) : Loans where
  out := loans.out ++ [i]
  returned := loans.returned.erase i
  lent := noted loans.lent i

/-- The account after an operation on the pool. -/
def after (loans : Loans) (pool : NodePool) : Operation → Loans
  | .take => loans.taking pool.take.1
  | .give none => loans
  | .give (some i) => { loans with out := loans.out.erase i, returned := i :: loans.returned }
  | .write .. => loans
  | .reset => {}

/-- The node to be taken next, as far as the account tells. -/
def next (loans : Loans) : Nat := loans.returned.head?.getD loans.lent.length

/-- The free nodes of a pool, as far as the account tells: those given back, the last one first, and
then those that have not been lent, by ascending number. -/
def free (loans : Loans) (capacity : Nat) : List Nat :=
  loans.returned ++ List.range' loans.lent.length (capacity - loans.lent.length)

/-- Only nodes in use are given back and written to. -/
def Permits (loans : Loans) : Operation → Prop
  | .give (some i) => i ∈ loans.out
  | .write i _ _ => i ∈ loans.out
  | _ => True

instance (loans : Loans) : DecidablePred loans.Permits
  | .take | .give none | .reset => .isTrue trivial
  | .give (some i) | .write i _ _ => inferInstanceAs (Decidable (i ∈ loans.out))

end Loans

namespace History

/-- The history after an operation on the pool. -/
def after (history : History) (pool : NodePool) (operation : Operation) : History :=
  let loans := history.toLoans.after pool operation
  { loans with
    known := (pool.hands? operation).elim history.known (noted history.known)
    most := max history.most loans.out.length }

/-- The history after some operations on the pool. -/
def run (history : History) (pool : NodePool) : List Operation → History
  | [] => history
  | operation :: rest => (history.after pool operation).run (pool.apply operation) rest

end History

/-- The operations are permitted, each at its time. -/
def Permitted (pool : NodePool) (loans : Loans) : List Operation → Prop
  | [] => True
  | operation :: rest =>
    loans.Permits operation ∧ (pool.apply operation).Permitted (loans.after pool operation) rest

instance decidablePermitted (pool : NodePool) (loans : Loans) :
    (operations : List Operation) → Decidable (pool.Permitted loans operations)
  | [] => .isTrue trivial
  | operation :: rest =>
    have := decidablePermitted (pool.apply operation) (loans.after pool operation) rest
    inferInstanceAs (Decidable (_ ∧ _))

/-- Of the first numbers, one that is at most the next is noted. -/
theorem noted_range {count i : Nat} (h : i ≤ count) :
    noted (List.range count) i = List.range (max count (i + 1)) := by
  rw [noted]
  split
  next hi =>
    rw [List.mem_range] at hi
    rw [Nat.max_eq_left hi]
  next hi =>
    rw [List.mem_range, Nat.not_lt] at hi
    obtain rfl := Nat.le_antisymm h hi
    rw [Nat.max_eq_right (Nat.le_succ i), List.range_succ]

/-! ## Pool and account in step -/

/-- The nodes are in use and free as the account tells. -/
structure Lends (pool : NodePool) (loans : Loans) : Prop where
  /-- The free nodes come out in the order of the account. -/
  sound : pool.Sound loans.out (loans.free pool.capacity)
  /-- Nodes are lent by ascending number. -/
  lent_eq : loans.lent = List.range loans.lent.length
  /-- Only nodes of the pool are lent. -/
  lent_le : loans.lent.length ≤ pool.capacity

theorem capacity_grow (pool : NodePool) : pool.grow.capacity = pool.capacity + pool.chunk := by
  simp [capacity, grow]

namespace Lends

variable {pool pool' : NodePool} {loans : Loans}

/-- A node that was given back had been lent. -/
theorem lt_of_mem_returned (h : pool.Lends loans) {i : Nat} (hi : i ∈ loans.returned) :
    i < loans.lent.length := by
  have hsize : i < pool.capacity := h.sound.lt_size_of_free (List.mem_append_left _ hi)
  have hnodup := (List.nodup_append.mp (List.nodup_append.mp h.sound.nodup).2.1).2.2
  refine Nat.lt_of_not_le fun hle ↦ hnodup i hi i ?_ rfl
  rw [List.mem_range'_1]
  omega

theorem next_le (h : pool.Lends loans) : loans.next ≤ loans.lent.length := by
  rw [Loans.next]
  cases hreturned : loans.returned with
  | nil => exact Nat.le_refl _
  | cons i rest =>
    have hi : i ∈ loans.returned := hreturned ▸ List.mem_cons_self
    exact Nat.le_of_lt (h.lt_of_mem_returned hi)

/-- A pool without free nodes has lent them all, and all are in use. -/
theorem of_free_eq_nil (h : pool.Lends loans) (hdry : loans.free pool.capacity = []) :
    loans.returned = [] ∧ loans.lent.length = pool.capacity ∧
      loans.out.length = pool.capacity := by
  have hlength := h.sound.perm.length_eq
  rw [hdry, List.append_nil, List.length_range] at hlength
  rw [Loans.free, List.append_eq_nil_iff, List.range'_eq_nil_iff] at hdry
  have := h.lent_le
  exact ⟨hdry.1, by omega, hlength⟩

/-- Lending goes on by ascending number. -/
theorem lent_taking (h : pool.Lends loans) :
    (loans.taking loans.next).lent = List.range (max loans.lent.length (loans.next + 1)) :=
  (congrArg (noted · loans.next) h.lent_eq).trans (noted_range h.next_le)

/-- The next node is the first of those that are free. -/
theorem free_eq_cons (h : pool.Lends loans) (hfree : loans.free pool.capacity ≠ []) :
    loans.free pool.capacity = loans.next :: (loans.taking loans.next).free pool.capacity := by
  have hlent := h.lent_taking
  rw [Loans.free] at hfree
  rw [Loans.free, Loans.free, hlent, List.length_range]
  -- A node that was given back has been noted before; one that was not is noted now.
  cases hreturned : loans.returned with
  | nil =>
    rw [hreturned, List.nil_append, Ne, List.range'_eq_nil_iff] at hfree
    have hnext : loans.next = loans.lent.length := by rw [Loans.next, hreturned]; rfl
    obtain ⟨left, hleft⟩ := Nat.exists_eq_add_one_of_ne_zero hfree
    rw [hnext, Nat.max_eq_right (Nat.le_succ _), hleft, List.range'_succ, Loans.taking, hreturned,
      show pool.capacity - (loans.lent.length + 1) = left by omega]
    rfl
  | cons i rest =>
    have hnext : loans.next = i := by rw [Loans.next, hreturned]; rfl
    have hi : i ∈ loans.returned := hreturned ▸ List.mem_cons_self
    rw [hnext, Nat.max_eq_left (h.lt_of_mem_returned hi), Loans.taking, hreturned,
      List.erase_cons_head, List.cons_append]

/-- A pool that has free nodes hands out the next one. -/
theorem take_of_free (h : pool.Lends loans) (hfree : loans.free pool.capacity ≠ []) :
    pool.take = (loans.next,
      { pool with
        nodes := pool.nodes.setIfInBounds loans.next default
        links := pool.links.setLink loans.next {}
        free := pool.links.next? loans.next
        inUse := pool.inUse + 1 }) ∧
      pool.take.2.Lends (loans.taking loans.next) := by
  have hsound := h.sound
  rw [h.free_eq_cons hfree] at hsound
  have htake := hsound.take_cons
  have hcapacity : pool.take.2.capacity = pool.capacity := by
    rw [htake]
    exact Array.size_setIfInBounds
  refine ⟨htake, ?_, ?_, ?_⟩
  · rw [hcapacity]
    exact hsound.sound_take_cons
  · rw [h.lent_taking, List.length_range]
  · have hnext : loans.next < pool.capacity := hsound.lt_size_of_free List.mem_cons_self
    rw [hcapacity, h.lent_taking, List.length_range]
    exact Nat.max_le.mpr ⟨h.lent_le, hnext⟩

/-- A pool that has run dry grows by nodes that have not been lent. -/
theorem grow (h : pool.Lends loans) (hdry : loans.free pool.capacity = []) :
    pool.grow.Lends loans := by
  obtain ⟨hreturned, hlent, -⟩ := h.of_free_eq_nil hdry
  have hsound := h.sound.grow
  rw [hdry, List.append_nil] at hsound
  refine ⟨?_, h.lent_eq, ?_⟩
  · rw [Loans.free, hreturned, hlent, capacity_grow, Nat.add_sub_cancel_left]
    exact hsound
  · rw [capacity_grow]
    exact Nat.le_add_right_of_le h.lent_le

/-- Before it hands out a node the pool grows if all nodes are in use, and only then. -/
theorem exists_stocked (h : pool.Lends loans) : ∃ stocked : NodePool,
    (stocked = pool ∨ stocked = pool.grow ∧ loans.out.length = pool.capacity) ∧
      pool.take = stocked.take ∧ stocked.Lends loans ∧ loans.free stocked.capacity ≠ [] := by
  by_cases hdry : loans.free pool.capacity = []
  · have hgrow := h.grow hdry
    have hsound := h.sound
    rw [hdry] at hsound
    refine ⟨pool.grow, .inr ⟨rfl, (h.of_free_eq_nil hdry).2.2⟩, hsound.take_nil, hgrow, ?_⟩
    intro hdry'
    have hlent := (h.of_free_eq_nil hdry).2.1
    have hlent' := (hgrow.of_free_eq_nil hdry').2.1
    have hchunk := h.sound.chunk_pos
    rw [capacity_grow] at hlent'
    omega
  · exact ⟨pool, .inl rfl, rfl, h, hdry⟩

theorem take_eq (h : pool.Lends loans) : pool.take.1 = loans.next := by
  obtain ⟨stocked, -, htake, hstocked, hfree⟩ := h.exists_stocked
  rw [htake, (hstocked.take_of_free hfree).1]

/-- The node comes blank, whatever was written to it before. -/
theorem take_blank (h : pool.Lends loans) : pool.take.2.get pool.take.1 = ⟨0, 0⟩ ∧
    pool.take.2.links[pool.take.1]? = some { prev := none, next := none } := by
  obtain ⟨stocked, -, htake, hstocked, hfree⟩ := h.exists_stocked
  have hmem : loans.next ∈ loans.free stocked.capacity := by
    rw [hstocked.free_eq_cons hfree]
    exact List.mem_cons_self
  have hsize := hstocked.sound.lt_size_of_free hmem
  rw [htake, (hstocked.take_of_free hfree).1]
  constructor
  · simp only [get, Array.getD_eq_getD_getElem?, Array.getElem?_setIfInBounds_self_of_lt hsize]
    rfl
  · exact LinkTable.getElem?_setLink_self (hstocked.sound.size_links ▸ hsize) {}

theorem apply (h : pool.Lends loans) (operation : Operation)
    (hpermits : loans.Permits operation) :
    (pool.apply operation).Lends (loans.after pool operation) := by
  cases operation with
  | take =>
    obtain ⟨stocked, -, htake, hstocked, hfree⟩ := h.exists_stocked
    rw [Loans.after, h.take_eq, NodePool.apply, htake]
    exact (hstocked.take_of_free hfree).2
  | give node? =>
    cases node? with
    | none => exact h
    | some i => exact ⟨h.sound.give hpermits, h.lent_eq, h.lent_le⟩
  | write i party link =>
    have hput := h.sound.put i party
    have hsound := hput.relink (fun links ↦ ({}, links.setLink i link))
      (LinkTable.size_setLink ..) fun j hj ↦ by
        have hij : i ≠ j := fun hij ↦ hput.notMem_free hpermits (hij ▸ hj)
        exact LinkTable.getElem?_setLink_ne hij link
    have hcapacity : (pool.apply (.write i party link)).capacity = pool.capacity :=
      Array.size_setIfInBounds
    refine ⟨?_, h.lent_eq, ?_⟩
    · rw [hcapacity]
      exact hsound
    · rw [hcapacity]
      exact h.lent_le
  | reset =>
    have hsound := h.sound.reset
    rw [List.range_eq_range'] at hsound
    exact ⟨hsound, rfl, Nat.zero_le _⟩

/-- Every node is in use or free. -/
theorem length_out_add (h : pool.Lends loans) :
    loans.out.length + (loans.free pool.capacity).length = pool.capacity := by
  have hlength := h.sound.perm.length_eq
  rwa [List.length_append, List.length_range] at hlength

/-- The pool grows by one chunk when a node is taken while all are in use, and at no other time. -/
theorem capacity_apply (h : pool.Lends loans) (operation : Operation) :
    (pool.apply operation).chunk = pool.chunk ∧
      ((pool.apply operation).capacity = pool.capacity ∨
        (pool.apply operation).capacity = pool.capacity + pool.chunk ∧
          (loans.after pool operation).out.length = pool.capacity + 1) := by
  cases operation with
  | take =>
    obtain ⟨stocked, hstocked, htake, hlends, hfree⟩ := h.exists_stocked
    have hcapacity : (pool.apply .take).capacity = stocked.capacity := by
      rw [NodePool.apply, htake, (hlends.take_of_free hfree).1]
      exact Array.size_setIfInBounds
    have hchunk : (pool.apply .take).chunk = stocked.chunk := by
      rw [NodePool.apply, htake, (hlends.take_of_free hfree).1]
    have hout : (loans.after pool .take).out.length = loans.out.length + 1 :=
      List.length_append
    rw [hcapacity, hchunk, hout]
    rcases hstocked with rfl | ⟨rfl, hall⟩
    · exact ⟨rfl, .inl rfl⟩
    · exact ⟨rfl, .inr ⟨capacity_grow pool, congrArg (· + 1) hall⟩⟩
  | give node? => cases node? <;> exact ⟨rfl, .inl rfl⟩
  | write i party link => exact ⟨rfl, .inl Array.size_setIfInBounds⟩
  | reset => exact ⟨rfl, .inl rfl⟩

end Lends

/-- Which nodes are handed out depends on the account alone, and so does what is permitted. -/
theorem Lends.handsOut_eq {pool pool' : NodePool} {loans : Loans} (h : pool.Lends loans)
    (h' : pool'.Lends loans) {operations : List Operation}
    (hpermitted : pool.Permitted loans operations) :
    pool'.Permitted loans operations ∧ pool.handsOut operations = pool'.handsOut operations := by
  induction operations generalizing pool pool' loans with
  | nil => exact ⟨trivial, rfl⟩
  | cons operation rest ih =>
    have hhands : pool.hands? operation = pool'.hands? operation := by
      cases operation with
      | take => exact congrArg some (h.take_eq.trans h'.take_eq.symm)
      | give node? => rfl
      | write i party link => rfl
      | reset => rfl
    have hafter : loans.after pool operation = loans.after pool' operation := by
      cases operation with
      | take => exact congrArg loans.taking (h.take_eq.trans h'.take_eq.symm)
      | give node? => cases node? <;> rfl
      | write i party link => rfl
      | reset => rfl
    have hpool' := h'.apply operation hpermitted.1
    rw [← hafter] at hpool'
    obtain ⟨hrest, heq⟩ := ih (h.apply operation hpermitted.1) hpool' hpermitted.2
    refine ⟨⟨hpermitted.1, hafter ▸ hrest⟩, ?_⟩
    rw [handsOut, handsOut, hhands, heq]

/-! ## How large the pool is -/

/-- The number of nodes in as many chunks as `most` nodes take, but at least one. -/
def room (chunk most : Nat) : Nat := chunk * max 1 (most ⌈/⌉ chunk)

section Room

variable {chunk most most' : Nat}

/-- Chunks with some room left are enough for a few nodes more. -/
theorem room_eq_of_le (hchunk : 0 < chunk) (hmost : most ≤ most')
    (hroom : most' ≤ room chunk most) : room chunk most' = room chunk most := by
  have hle : most' ⌈/⌉ chunk ≤ max 1 (most ⌈/⌉ chunk) := (ceilDiv_le_iff_le_mul hchunk).mpr hroom
  have hmono : most ⌈/⌉ chunk ≤ most' ⌈/⌉ chunk := (gc_mul_ceilDiv hchunk).monotone_l hmost
  rw [room, room]
  congr 1
  omega

/-- One node more than there is room for takes one more chunk. -/
theorem room_succ (hchunk : 0 < chunk) :
    room chunk (room chunk most + 1) = room chunk most + chunk := by
  have hceil : (room chunk most + 1) ⌈/⌉ chunk = max 1 (most ⌈/⌉ chunk) + 1 := by
    refine Nat.le_antisymm ?_ (Nat.lt_of_not_le fun hle ↦ ?_)
    · rw [ceilDiv_le_iff_le_mul hchunk, Nat.mul_add_one, ← room]
      exact Nat.add_le_add_left hchunk _
    · rw [ceilDiv_le_iff_le_mul hchunk, ← room] at hle
      exact Nat.not_succ_le_self _ hle
  rw [room, hceil, Nat.max_eq_right (Nat.le_add_left 1 _), Nat.mul_add_one, ← room]

end Room

/-- The pool is as large as its history tells. -/
structure Remembers (pool : NodePool) (chunk : Nat) (history : History) : Prop where
  /-- The nodes are in use and free as the history tells. -/
  lends : pool.Lends history.toLoans
  /-- Chunks are of the given size. -/
  chunk_eq : pool.chunk = chunk
  /-- Nodes are numbered in the order in which they are first taken. -/
  known_eq : history.known = List.range history.known.length
  /-- Only known nodes have been lent since the last reset. -/
  lent_le : history.lent.length ≤ history.known.length
  /-- There are no more chunks than it takes. -/
  capacity_eq : pool.capacity = room chunk history.most
  most_le : history.most ≤ pool.capacity

namespace Remembers

variable {pool : NodePool} {chunk : Nat} {history : History}

/-- A node that is taken is known already or gets the next number. -/
theorem known_after_take (h : pool.Remembers chunk history) :
    (history.after pool .take).known =
      List.range (max history.known.length (history.next + 1)) := by
  have hnext := Nat.le_trans h.lends.next_le h.lent_le
  have htake : (history.after pool .take).known = noted history.known history.next := by
    rw [← h.lends.take_eq]
    rfl
  rw [htake, ← noted_range hnext, ← h.known_eq]

/-- Nodes stay numbered in the order in which they are first taken. -/
private theorem known_after (h : pool.Remembers chunk history) (operation : Operation) :
    (history.after pool operation).known =
        List.range (history.after pool operation).known.length ∧
      (history.after pool operation).lent.length ≤
        (history.after pool operation).known.length := by
  cases operation with
  | take =>
    have hlent : (history.after pool .take).lent =
        List.range (max history.lent.length (history.next + 1)) := by
      rw [← h.lends.lent_taking, ← h.lends.take_eq]
      rfl
    rw [h.known_after_take, hlent, List.length_range, List.length_range]
    have := h.lent_le
    exact ⟨rfl, by omega⟩
  | give node? => cases node? <;> exact ⟨h.known_eq, h.lent_le⟩
  | write i party link => exact ⟨h.known_eq, h.lent_le⟩
  | reset => exact ⟨h.known_eq, Nat.zero_le _⟩

theorem apply (h : pool.Remembers chunk history) (operation : Operation)
    (hpermits : history.Permits operation) :
    (pool.apply operation).Remembers chunk (history.after pool operation) := by
  have hlends := h.lends.apply operation hpermits
  have hchunk : 0 < chunk := h.chunk_eq ▸ h.lends.sound.chunk_pos
  obtain ⟨hchunk', hcapacity⟩ := h.lends.capacity_apply operation
  have hmost : (history.after pool operation).most =
    max history.most (history.toLoans.after pool operation).out.length := rfl
  have hle : (history.after pool operation).most ≤ (pool.apply operation).capacity := by
    have hmost_le := h.most_le
    have hout := hlends.length_out_add
    omega
  refine ⟨hlends, hchunk'.trans h.chunk_eq, (h.known_after operation).1,
    (h.known_after operation).2, ?_, hle⟩
  -- As long as the pool does not grow there is room for all; it grows for a node too many.
  rcases hcapacity with hsame | ⟨hgrown, hout⟩
  · rw [hsame] at hle ⊢
    rw [h.capacity_eq] at hle ⊢
    exact (room_eq_of_le hchunk (hmost ▸ Nat.le_max_left ..) hle).symm
  · rw [hmost, hout, Nat.max_eq_right (Nat.le_succ_of_le h.most_le), hgrown, h.capacity_eq,
      room_succ hchunk, h.chunk_eq]

theorem run (h : pool.Remembers chunk history) {operations : List Operation}
    (hpermitted : pool.Permitted history.toLoans operations) :
    (pool.run operations).Remembers chunk (history.run pool operations) := by
  induction operations generalizing pool history with
  | nil => exact h
  | cons operation rest ih => exact ih (h.apply operation hpermitted.1) hpermitted.2

end Remembers

/-- Nothing has been lent by a fresh pool. -/
theorem lends_ofCapacity (capacity : Nat) : (ofCapacity capacity).Lends {} := by
  have hsound := Sound.ofCapacity capacity
  have hcapacity : (ofCapacity capacity).capacity = max capacity 1 := by
    simp [ofCapacity, NodePool.capacity, grow]
  refine ⟨?_, rfl, Nat.zero_le _⟩
  rw [hcapacity]
  rw [List.range_eq_range'] at hsound
  exact hsound

theorem remembers_ofCapacity (capacity : Nat) :
    (ofCapacity capacity).Remembers (max capacity 1) {} := by
  refine ⟨lends_ofCapacity capacity, rfl, rfl, Nat.le_refl _, ?_, Nat.zero_le _⟩
  simp [ofCapacity, NodePool.capacity, grow, room]

/-- At any point of any permitted run nodes are lent in the order of the account, and no more chunks
are made than the most nodes that were ever in use at once take. -/
theorem lends_in_order (capacity : Nat) {operations : List Operation}
    (hpermitted : (ofCapacity capacity).Permitted {} operations) :
    let pool := (ofCapacity capacity).run operations
    let history := History.run {} (ofCapacity capacity) operations
    let node := pool.take.1
    -- Nodes are numbered in the order in which they are first taken, also the one taken next.
    history.known = List.range history.known.length ∧
    (node ∈ history.known ∨ node = history.known.length) ∧
    -- The node given back last comes next; without one, the first that has not been lent.
    (∀ i ∈ history.returned.head?, node = i) ∧
    (history.returned = [] → node ∉ history.lent ∧ ∀ i < node, i ∈ history.lent) ∧
    -- It is not in use, and comes blank.
    node ∉ history.out ∧ pool.take.2.get node = ⟨0, 0⟩ ∧
    pool.take.2.links[node]? = some { prev := none, next := none } ∧
    -- After a reset the same nodes are handed out as by a fresh pool.
    (∀ later, pool.reset.Permitted {} later → (ofCapacity capacity).Permitted {} later ∧
      pool.reset.handsOut later = (ofCapacity capacity).handsOut later) ∧
    -- The nodes are counted, those in use and those that are free.
    pool.inUse = history.out.length ∧
    (∃ free, pool.links.Leads pool.free free ∧ pool.available = free.length) ∧
    pool.inUse + pool.available = pool.capacity ∧
    -- There are as many chunks as are needed.
    pool.capacity = max capacity 1 * max 1 (history.most ⌈/⌉ max capacity 1) := by
  intro pool history node
  have h : pool.Remembers (max capacity 1) history := (remembers_ofCapacity capacity).run hpermitted
  have hlends := h.lends
  have hnode : node = history.next := hlends.take_eq
  obtain ⟨_, -, hnot, -⟩ := hlends.sound.take
  have hblank := hlends.take_blank
  have hcount := hlends.length_out_add
  have hinUse := hlends.sound.inUse_eq
  refine ⟨h.known_eq, ?_, fun i hi ↦ ?_, fun hreturned ↦ ?_, hnot, hblank.1, hblank.2,
    fun later hlater ↦ ?_, hinUse, ⟨_, hlends.sound.leads, ?_⟩, ?_, h.capacity_eq⟩
  · have hle := Nat.le_trans hlends.next_le h.lent_le
    rw [h.known_eq, List.mem_range, List.length_range, hnode]
    exact Nat.lt_or_eq_of_le hle
  · rw [hnode, Loans.next, Option.mem_def.mp hi, Option.getD_some]
  · rw [Loans.next, hreturned, List.head?_nil, Option.getD_none] at hnode
    rw [hnode, hlends.lent_eq]
    simp
  · have hreset : pool.reset.Lends {} := hlends.apply .reset trivial
    exact hreset.handsOut_eq (lends_ofCapacity capacity) hlater
  · rw [available]
    omega
  · rw [available]
    omega

/-- Of two nodes both are in use when a third one is taken; the one given back is taken again. -/
theorem lends_in_order_two :
    (ofCapacity 2).Permitted {} [.take, .take, .take, .write 1 ⟨42, 3⟩ {}, .give (some 1)] ∧
      ((ofCapacity 2).run
        [.take, .take, .take, .write 1 ⟨42, 3⟩ {}, .give (some 1)]).take.1 = 1 := by
  have hpermitted :
      (ofCapacity 2).Permitted {} [.take, .take, .take, .write 1 ⟨42, 3⟩ {}, .give (some 1)] := by
    decide
  exact ⟨hpermitted, (lends_in_order 2 hpermitted).2.2.1 1 rfl⟩

end RideShare.NodePool
