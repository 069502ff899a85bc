import Mathlib.Data.List.Induction
import RideShare.Proofs.Backlog

/-!
# Standing in line

On paper, a backlog is a list: whoever joins is written down behind all others, whoever leaves is
struck out, and nobody else moves. `Backlog.Operation.onLine` keeps that list by itself, without
nodes, links, index or histogram, and `Backlog.Keeps` says what it is for a backlog to keep it:
everything that can be asked of the backlog, and everything it may answer next, is read off the
list.

A sound backlog keeps the list of those who wait, so what a run does is settled by one step: the
list on paper changes as the list in the nodes does.

## Main statements

* `Backlog.Sound.toList_apply`: an operation does to those who wait what it does to the list;
* `Backlog.keeps_run`: in every run, a backlog keeps the list of the operations so far.
-/

namespace RideShare.Backlog

/-- An operation on a backlog, with its arguments. -/
inductive Operation where
  /-- A party joins. -/
  | enqueue (party : Party)
  /-- A party leaves. -/
  | dequeue (id : UInt64)
  /-- Everybody leaves. -/
  | clear

/-- The line after an operation. A party of proper size joins unless it stands in line already. -/
def Operation.onLine (line : List Party) : Operation → List Party
  | .enqueue party =>
    if isSeatCount party.size ∧ ∀ other ∈ line, other.id ≠ party.id then line ++ [party] else line
  | .dequeue id => line.eraseP (·.id = id)
  | .clear => []

/-- The line after some operations. -/
def lineAfter (operations : List Operation) : List Party := operations.foldl Operation.onLine []

/-- The backlog after an operation. -/
def apply (backlog : Backlog) : Operation → Backlog
  | .enqueue party => (backlog.enqueue party).2
  | .dequeue id => (backlog.dequeue id).2
  | .clear => backlog.clear

/-- The backlog after some operations. -/
def run (backlog : Backlog) (operations : List Operation) : Backlog :=
  operations.foldl apply backlog

theorem lineAfter_concat (operations : List Operation) (operation : Operation) :
    lineAfter (operations ++ [operation]) = operation.onLine (lineAfter operations) :=
  List.foldl_append

theorem run_concat (backlog : Backlog) (operations : List Operation) (operation : Operation) :
    backlog.run (operations ++ [operation]) = (backlog.run operations).apply operation :=
  List.foldl_append

/-! ## Keeping a line -/

/-- The backlog keeps the line: it is the line, read from either end, and answers from it. -/
structure Keeps (backlog : Backlog) (line : List Party) : Prop where
  /-- Nobody stands in line twice. -/
  nodup_ids : (line.map Party.id).Nodup
  /-- The line, the oldest party first. -/
  toList_eq : backlog.toList = line
  /-- The line, the newest party first, by the links that point back. -/
  toListRev_eq : backlog.toListRev = line.reverse
  /-- Who joins is of proper size and does not stand in line. -/
  enqueue_iff : ∀ party, (backlog.enqueue party).1 = true ↔
    isSeatCount party.size = true ∧ ∀ other ∈ line, other.id ≠ party.id
  /-- Who does not join leaves no trace. -/
  enqueue_of_refused : ∀ party,
    (backlog.enqueue party).1 = false → (backlog.enqueue party).2 = backlog
  /-- Who leaves stood in line. -/
  dequeue_iff : ∀ id, (backlog.dequeue id).1 = true ↔ ∃ party ∈ line, party.id = id
  /-- Who does not leave leaves no trace. -/
  dequeue_of_refused : ∀ id, (backlog.dequeue id).1 = false → (backlog.dequeue id).2 = backlog
  /-- The size is the number of parties in line. -/
  size_eq : backlog.size = line.length
  /-- The backlog is empty if the line is. -/
  isEmpty_iff : backlog.isEmpty = true ↔ line = []
  /-- A party waits if it stands in line. -/
  contains_iff : ∀ id, backlog.contains id = true ↔ ∃ party ∈ line, party.id = id
  /-- For every size, proper or not, the parties of that size are counted. -/
  countOfSize_eq : ∀ size, backlog.countOfSize size = line.countP (·.size = size)
  /-- Somebody fits if somebody in line is small enough. -/
  anyFits_iff : ∀ seats, backlog.anyFits seats = true ↔ ∃ party ∈ line, party.size ≤ seats
  /-- As many nodes are in use as there are parties in line. -/
  inUse_eq : backlog.pool.inUse = line.length

namespace Sound

variable {backlog : Backlog}

/-- Every node in use holds a party. -/
theorem inUse_eq (h : backlog.Sound) : backlog.pool.inUse = backlog.toList.length := by
  obtain ⟨free, hpool⟩ := h.pool
  rw [hpool.inUse_eq, toList_eq_map, List.length_map]

/-- A sound backlog keeps the line of those who wait. -/
theorem keeps (h : backlog.Sound) : backlog.Keeps backlog.toList where
  nodup_ids := h.nodup_ids
  toList_eq := rfl
  toListRev_eq := h.toListRev_eq
  enqueue_iff party := by
    rw [fst_enqueue, Bool.and_eq_true, Bool.not_eq_true', ← Bool.not_eq_true, h.contains_iff]
    simp
  enqueue_of_refused _ := Backlog.enqueue_of_refused
  dequeue_iff id := by
    rw [fst_dequeue]
    exact h.contains_iff
  dequeue_of_refused _ := Backlog.dequeue_of_refused
  size_eq := h.size_eq
  isEmpty_iff := h.isEmpty_iff
  contains_iff _ := h.contains_iff
  countOfSize_eq := h.countOfSize_eq
  anyFits_iff _ := h.anyFits_iff
  inUse_eq := h.inUse_eq

/-! ## Runs -/

theorem apply (h : backlog.Sound) (operation : Operation) : (backlog.apply operation).Sound := by
  cases operation with
  | enqueue party => exact h.enqueue party
  | dequeue id => exact h.dequeue id
  | clear => exact h.clear

/-- As nobody stands in line twice, striking out a party once is striking it out for good. -/
theorem eraseP_toList (h : backlog.Sound) (id : UInt64) :
    backlog.toList.eraseP (·.id = id) = backlog.toList.filter (·.id ≠ id) := by
  have hids := h.nodup_ids
  generalize backlog.toList = line at hids ⊢
  induction line with
  | nil => rfl
  | cons party rest ih =>
    rw [List.map_cons, List.nodup_cons] at hids
    by_cases hid : party.id = id
    · have hrest : ∀ other ∈ rest, other.id ≠ id := fun other hother heq ↦
        hids.1 (List.mem_map.mpr ⟨other, hother, heq.trans hid.symm⟩)
      rw [List.eraseP_cons_of_pos (by simpa using hid),
        List.filter_cons_of_neg (by simpa using hid)]
      exact (List.filter_eq_self.mpr fun other hother ↦ by simpa using hrest other hother).symm
    · rw [List.eraseP_cons_of_neg (by simpa using hid),
        List.filter_cons_of_pos (by simpa using hid), ih hids.2]

/-- An operation does to those who wait what it does to the line. -/
theorem toList_apply (h : backlog.Sound) (operation : Operation) :
    (backlog.apply operation).toList = operation.onLine backlog.toList := by
  cases operation with
  | enqueue party =>
    rw [Operation.onLine]
    split
    next hjoins => exact h.toList_enqueue ((h.keeps.enqueue_iff party).mpr hjoins)
    next hrefused =>
      rw [← h.keeps.enqueue_iff, Bool.not_eq_true] at hrefused
      exact congrArg toList (Backlog.enqueue_of_refused hrefused)
  | dequeue id => exact (h.toList_dequeue id).trans (h.eraseP_toList id).symm
  | clear => exact h.toList_clear

end Sound

private theorem sound_run (reserve : Nat) (operations : List Operation) :
    ((ofReserve reserve).run operations).Sound ∧
      ((ofReserve reserve).run operations).toList = lineAfter operations := by
  induction operations using List.reverseRecOn with
  | nil => exact ⟨sound_ofReserve reserve, toList_ofReserve reserve⟩
  | append_singleton operations operation ih =>
    rw [run_concat, lineAfter_concat, ih.1.toList_apply, ih.2]
    exact ⟨ih.1.apply operation, rfl⟩

/-- Whatever is done to a backlog, it keeps the line of what was done. -/
theorem keeps_run (reserve : Nat) (operations : List Operation) :
    ((ofReserve reserve).run operations).Keeps (lineAfter operations) := by
  obtain ⟨hsound, hline⟩ := sound_run reserve operations
  exact hline ▸ hsound.keeps

end RideShare.Backlog
