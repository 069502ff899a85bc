import Mathlib.Data.List.Induction
import RideShare.Command
import RideShare.Ring.Queue

/-!
# What passes through a ring

Values go in at one end of a ring and come out at the other. Nothing is lost on the way, nothing is
made up, and nobody overtakes: at any time, the values that came out, followed by those still in the
ring, are those that went in. One operation moves values from one part of this account to the other,
`Ring.WellPlaced.deliver_append`, and a run is one such step after the other.

Both ends work with places they saw in the past. The account holds all the same, and so does what
each end is told: a writer is turned away only by a full ring, and a reader only by an empty one.

## Main statements

* `Ring.WellPlaced.delivered_append`: the account of a run, for a ring of any size;
* `Ring.fifo_run`: a ring of commands is a queue of at most 65535 commands, in every run.
-/

namespace RideShare.Ring

variable {α : Type}

/-- An operation at one of the ends of a ring. -/
inductive Operation (α : Type) where
  /-- The writer stores a value. -/
  | enqueue (value : α)
  /-- The reader takes a value. -/
  | dequeue
  /-- The reader takes up to `most` values. -/
  | dequeueBatch (most : Nat)

/-- The values that go in by an operation. -/
def accept (ring : Ring α) : Operation α → List α
  | .enqueue value => if (ring.enqueue value).1 then [value] else []
  | .dequeue => []
  | .dequeueBatch _ => []

@[simp] theorem capacity_stored (ring : Ring α) (value : α) :
    (ring.stored value).capacity = ring.capacity := by
  rw [capacity, size_slots_stored, capacity]

variable [Inhabited α]

/-- The ring after an operation. -/
def apply (ring : Ring α) : Operation α → Ring α
  | .enqueue value => (ring.enqueue value).2
  | .dequeue => ring.dequeue.2
  | .dequeueBatch most => (ring.dequeueBatch most).2

/-- The values that come out by an operation. -/
def deliver (ring : Ring α) : Operation α → List α
  | .enqueue _ => []
  | .dequeue => ring.dequeue.1.toList
  | .dequeueBatch most => (ring.dequeueBatch most).1

/-- The ring after some operations. -/
def run (ring : Ring α) (operations : List (Operation α)) : Ring α := operations.foldl apply ring

/-- The values that go in in the course of operations, in order. -/
def accepted (ring : Ring α) : List (Operation α) → List α
  | [] => []
  | operation :: rest => ring.accept operation ++ (ring.apply operation).accepted rest

/-- The values that come out in the course of operations, in order. -/
def delivered (ring : Ring α) : List (Operation α) → List α
  | [] => []
  | operation :: rest => ring.deliver operation ++ (ring.apply operation).delivered rest

@[simp] theorem capacity_ofSlots (slots : Nat) : (ofSlots slots : Ring α).capacity = slots - 1 := by
  simp [ofSlots, capacity]

@[simp] theorem toList_ofSlots (slots : Nat) : (ofSlots slots : Ring α).toList = [] := by
  rw [← List.length_eq_zero_iff, length_toList]
  simp [ofSlots, size, distance]

theorem isEmpty_iff (ring : Ring α) : ring.isEmpty = true ↔ ring.toList = [] := by
  rw [isEmpty, beq_iff_eq, ← length_toList, List.length_eq_zero_iff]

namespace WellPlaced

variable {ring : Ring α}

/-! ## One operation -/

theorem apply (h : ring.WellPlaced) (operation : Operation α) :
    (ring.apply operation).WellPlaced := by
  cases operation with
  | enqueue value => exact h.enqueue value
  | dequeue => exact h.dequeueBatch 1
  | dequeueBatch most => exact h.dequeueBatch most

theorem capacity_apply (h : ring.WellPlaced) (operation : Operation α) :
    (ring.apply operation).capacity = ring.capacity := by
  have hread (count : Nat) : (ring.refreshWrite.advanced count).capacity = ring.capacity := by
    rw [capacity, capacity, Ring.advanced, slots_refreshWrite]
  cases operation with
  | enqueue value =>
    rw [Ring.apply, h.enqueue_eq]
    split
    next => rw [capacity, capacity, slots_refreshRead]
    next => rw [capacity_stored, capacity, capacity, slots_refreshRead]
  | dequeue =>
    rw [Ring.apply, Ring.dequeue, h.dequeueBatch_eq]
    exact hread _
  | dequeueBatch most =>
    rw [Ring.apply, h.dequeueBatch_eq]
    exact hread _

/-- What comes out comes off the front, and what goes in goes to the back. -/
theorem deliver_append (h : ring.WellPlaced) (operation : Operation α) :
    ring.deliver operation ++ (ring.apply operation).toList =
      ring.toList ++ ring.accept operation := by
  cases operation with
  | enqueue value =>
    have hstored := h.fst_enqueue value
    rw [deliver, Ring.apply, accept, List.nil_append, h.toList_enqueue]
    by_cases hroom : ring.size < ring.capacity
    · rw [if_pos hroom, if_pos (hstored.mpr hroom)]
    · rw [if_neg hroom, if_neg (fun htrue ↦ hroom (hstored.mp htrue)), List.append_nil]
  | dequeue =>
    rw [deliver, Ring.apply, accept, h.fst_dequeue, h.toList_dequeue, List.append_nil]
    cases ring.toList <;> rfl
  | dequeueBatch most =>
    rw [deliver, Ring.apply, accept, List.append_nil]
    exact h.dequeueBatch_append most

/-! ## What the ends are told -/

/-- The writer is turned away by a full ring only. -/
theorem fst_enqueue_eq_false_iff (h : ring.WellPlaced) (value : α) :
    (ring.enqueue value).1 = false ↔ ring.toList.length = ring.capacity := by
  have := h.size_lt
  rw [← Bool.not_eq_true, h.fst_enqueue, length_toList, capacity]
  omega

/-- A writer that is turned away has touched no slot. -/
theorem slots_enqueue_of_refused (h : ring.WellPlaced) {value : α}
    (hrefused : (ring.enqueue value).1 = false) :
    (ring.enqueue value).2.slots = ring.slots := by
  rw [h.fst_enqueue_eq_false_iff, length_toList] at hrefused
  rw [h.enqueue_eq, if_pos hrefused, slots_refreshRead]

/-- The reader of one value is turned away by an empty ring only. -/
theorem fst_dequeue_eq_none_iff (h : ring.WellPlaced) :
    ring.dequeue.1 = none ↔ ring.toList = [] := by
  rw [h.fst_dequeue, List.head?_eq_none_iff]

/-- The reader of many values gets none only from an empty ring, or if it asked for none. -/
theorem fst_dequeueBatch_eq_nil_iff (h : ring.WellPlaced) (most : Nat) :
    (ring.dequeueBatch most).1 = [] ↔ most = 0 ∨ ring.toList = [] := by
  have hoffered := h.offered_eq_zero_iff
  rw [← ring.length_toList, List.length_eq_zero_iff] at hoffered
  rw [← List.length_eq_zero_iff, h.length_dequeueBatch, ← hoffered]
  omega

/-! ## Runs -/

theorem run (h : ring.WellPlaced) (operations : List (Operation α)) :
    (ring.run operations).WellPlaced ∧ (ring.run operations).capacity = ring.capacity := by
  induction operations generalizing ring with
  | nil => exact ⟨h, rfl⟩
  | cons operation rest ih =>
    obtain ⟨hrest, hcapacity⟩ := ih (h.apply operation)
    exact ⟨hrest, hcapacity.trans (h.capacity_apply operation)⟩

/-- What came out and what is in the ring is what was in it and what went in. -/
theorem delivered_append (h : ring.WellPlaced) (operations : List (Operation α)) :
    ring.delivered operations ++ (ring.run operations).toList =
      ring.toList ++ ring.accepted operations := by
  induction operations generalizing ring with
  | nil => simp [delivered, accepted, Ring.run]
  | cons operation rest ih =>
    have hrest := ih (h.apply operation)
    calc ring.delivered (operation :: rest) ++ (ring.run (operation :: rest)).toList
      _ = ring.deliver operation ++ ((ring.apply operation).delivered rest ++
            ((ring.apply operation).run rest).toList) := List.append_assoc ..
      _ = ring.deliver operation ++ (ring.apply operation).toList ++
            (ring.apply operation).accepted rest := by rw [hrest, List.append_assoc]
      _ = ring.toList ++ ring.accept operation ++ (ring.apply operation).accepted rest := by
        rw [h.deliver_append]
      _ = ring.toList ++ ring.accepted (operation :: rest) := List.append_assoc ..

/-- Values that find room are stored one behind the other. -/
theorem toList_run_enqueue (h : ring.WellPlaced) {values : List α}
    (hroom : ring.toList.length + values.length ≤ ring.capacity) :
    (ring.run (values.map .enqueue)).toList = ring.toList ++ values := by
  induction values generalizing ring with
  | nil => exact (List.append_nil _).symm
  | cons value rest ih =>
    rw [List.length_cons] at hroom
    have hstored : (ring.apply (.enqueue value)).toList = ring.toList ++ [value] := by
      rw [Ring.apply, h.toList_enqueue, if_pos]
      rw [← length_toList]
      omega
    have hrest := ih (h.apply (.enqueue value)) <| by
      rw [hstored, h.capacity_apply, List.length_append, List.length_singleton]
      omega
    rw [hstored, List.append_assoc] at hrest
    exact hrest

end WellPlaced

/-- A ring of commands is a queue of at most 65535 commands: in every run, those that came out and
those that are stored are those that went in, in the same order, and at every point of it the ring
turns a writer away exactly if it is full and a reader exactly if it is empty. -/
theorem fifo_run (operations : List (Operation Command)) :
    let ring := forCommands.run operations
    forCommands.delivered operations ++ ring.toList = forCommands.accepted operations ∧
    -- The writer.
    (∀ command, (ring.enqueue command).1 = false ↔ ring.toList.length = 65535) ∧
    (∀ command, (ring.enqueue command).1 = false → (ring.enqueue command).2.slots = ring.slots ∧
      (ring.enqueue command).2.toList = ring.toList) ∧
    -- The reader.
    (ring.dequeue.1 = none ↔ ring.toList = []) ∧
    (∀ most, (ring.dequeueBatch most).1 = [] ↔ most = 0 ∨ ring.toList = []) ∧
    -- Everybody.
    ring.size = ring.toList.length ∧ (ring.isEmpty = true ↔ ring.toList = []) := by
  intro ring
  have hfresh : (forCommands : Ring Command).WellPlaced := wellPlaced_ofSlots (by decide)
  obtain ⟨h, hcapacity⟩ := hfresh.run operations
  have hfull : ring.capacity = 65535 := hcapacity.trans (capacity_ofSlots standardSlots)
  refine ⟨?_, fun command ↦ ?_, fun command hrefused ↦ ⟨h.slots_enqueue_of_refused hrefused, ?_⟩,
    h.fst_dequeue_eq_none_iff, h.fst_dequeueBatch_eq_nil_iff, (ring.length_toList).symm,
    ring.isEmpty_iff⟩
  · rw [hfresh.delivered_append, forCommands, toList_ofSlots, List.nil_append]
  · rw [h.fst_enqueue_eq_false_iff, hfull]
  · rw [h.toList_enqueue, if_neg]
    rw [← h.fst_enqueue command, hrefused]
    exact Bool.false_ne_true

end RideShare.Ring
